import DiskKeys.Files.Tree

/-! # The world of the agent

    A world is a file tree, the sockets that were ever bound in it, and a
    clock.  Sockets are known by their number in the order of binding; a
    closed socket keeps its number and its address stays in the tree, but
    nothing can be sent to it any more.  A message is delivered whole or
    not at all. -/

namespace DiskKeys

/-- A bound socket. -/
structure Socket where
  /-- The path that it was bound to. -/
  address : Path
  isOpen : Bool
  deriving DecidableEq, Repr

/-- A message that arrived at a socket. -/
structure Datagram where
  socket : Nat
  payload : Bytes
  deriving DecidableEq, Repr

/-- Files, sockets and clock. -/
structure World where
  tree : FileTree
  sockets : List Socket
  /-- Microseconds on the monotonic clock. -/
  now : Nat
  deriving DecidableEq, Repr

namespace World

/-- The size from which on the path of a socket does not fit in an
    address. -/
def addressSize : Nat := 108

/-- The largest message. -/
def maxPayload : Nat := 212960

/-- Whether a socket takes messages. -/
def isListening (w : World) (id : Nat) : Bool :=
  match w.sockets[id]? with
  | some socket => socket.isOpen
  | none => false

/-- Refuses paths that are no address. -/
def checkAddress (p : Path) : Except Fault Unit :=
  if p.bytes.contains 0 then .error .nulInSocketPath
  else if addressSize ≤ p.bytes.length then .error .socketPathTooLong
  else if p.bytes.isEmpty then .error .invalidArgument
  else .ok ()

/-- Sends a message to the socket at a path. -/
def send (w : World) (p : Path) (payload : Bytes) : Except Fault Datagram := do
  checkAddress p
  if maxPayload < payload.length then throw .messageTooLong
  match ← w.tree.resolve p with
  | (_, .socket id) =>
      if w.isListening id then return ⟨id, payload⟩ else throw .connectionRefused
  | (_, .file mode _) =>
      if FileTree.ownerMayWrite mode then throw .connectionRefused else throw .permissionDenied
  | (_, .directory) => throw .connectionRefused

/-- Binds a new socket to a path at which nothing is.  An empty path gives
    the socket an address to which no path leads. -/
def bind (w : World) (p : Path) : Except Fault World := do
  if p.bytes.isEmpty then return { w with sockets := w.sockets ++ [⟨p, true⟩] }
  checkAddress p
  match ← w.tree.resolveParent p with
  | .dots => throw .addressInUse
  | .name dir name =>
      let loc ← w.tree.child dir name
      if (w.tree.node? loc).isSome then throw .addressInUse
      if p.endsInSlash then throw .noEntry
      return { w with
        tree := w.tree.put loc (.socket w.sockets.length)
        sockets := w.sockets ++ [⟨p, true⟩] }

/-- Closes the sockets that were bound to a path. -/
def unbind (w : World) (p : Path) : World :=
  { w with sockets := w.sockets.map fun s => if s.address = p then { s with isOpen := false } else s }

end World

end DiskKeys
