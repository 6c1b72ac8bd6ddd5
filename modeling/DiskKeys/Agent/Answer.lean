import DiskKeys.Files.Secret
import DiskKeys.KeyBlob
import DiskKeys.Log
import DiskKeys.Request
import DiskKeys.Settings
import DiskKeys.Text.Quoted
import DiskKeys.World

/-! # Answering one request

    The agent answers a request with the boot key or the root key, read
    fresh from its file.  A request is marked as seen before its file is
    even opened, and one that has been seen is never looked at again: so
    whatever goes wrong with it, it gets at most one message.  The agent
    changes nothing in the world; what it says is collected in a report. -/

namespace DiskKeys

/-- What the agent said: its log lines, and the messages that arrived. -/
structure Report where
  log : List LogLine
  sent : List Datagram
  deriving DecidableEq, Repr

namespace Report

/-- Nothing was said. -/
def silent : Report := ⟨[], []⟩

/-- One log line. -/
def line (l : LogLine) : Report := ⟨[l], []⟩

/-- One message. -/
def message (d : Datagram) : Report := ⟨[], [d]⟩

/-- What was said in one report and then in another. -/
def append (a b : Report) : Report := ⟨a.log ++ b.log, a.sent ++ b.sent⟩

instance : Append Report := ⟨append⟩

end Report

/-- Why a request was not answered, or the agent could not start. -/
inductive AgentError where
  | watch (path : Path) (fault : Fault)
  | readRequest (path : Path) (fault : Fault)
  | malformed (cause : RequestError)
  | keyFile (cause : KeyFileError)
  | reply (path : Path) (fault : Fault)
  | expired (id : String)
  deriving DecidableEq, Repr

/-- The text that reports the failure. -/
def AgentError.message : AgentError → String
  | .watch path fault => s!"failed to watch {path.display}: {fault.message}"
  | .readRequest path fault => s!"failed to read request {path.display}: {fault.message}"
  | .malformed cause => s!"malformed request: {cause.message}"
  | .keyFile cause => cause.message
  | .reply path fault => s!"failed to answer on {path.display}: {fault.message}"
  | .expired id => s!"request {id} expired before it was answered"

/-- What became of a name that the agent was told of. -/
inductive Handled where
  /-- It is not the name of a request. -/
  | ignored
  /-- It has been seen before. -/
  | duplicate
  | answered (kind : KeyKind)
  deriving DecidableEq, Repr

/-- The agent between two steps. -/
structure Agent where
  settings : Settings
  bootKey : Path
  rootKey : Path
  /-- The requests that are not looked at again. -/
  seen : List String
  deriving DecidableEq, Repr

namespace Agent

/-- An agent that has seen nothing. -/
def fresh (settings : Settings) (bootKey rootKey : Path) : Agent :=
  ⟨settings, bootKey, rootKey, []⟩

/-- Whether a request is not looked at again. -/
def hasSeen (a : Agent) (id : String) : Bool :=
  a.seen.contains id

/-- Marks a request as seen. -/
def markSeen (a : Agent) (id : String) : Agent :=
  if a.hasSeen id then a else { a with seen := id :: a.seen }

/-- The file of a key. -/
def keyPath (a : Agent) : KeyKind → Path
  | .boot => a.bootKey
  | .root => a.rootKey

/-- Whether a name is the name of a request. -/
def isRequest (a : Agent) (name : String) : Bool :=
  a.settings.requestPrefix.toList.isPrefixOf name.toList

/-- The path of a request. -/
def requestPath (a : Agent) (name : String) : Path :=
  a.settings.askDir.join (.ofString name)

/-- The first byte of a message with a key. -/
def ack : UInt8 := 0x2b

/-- The message that refuses a request. -/
def nack : UInt8 := 0x2d

/-- Sends a status byte and a secret. -/
def reply (w : World) (socket : Path) (status : UInt8) (secret : Bytes) :
    Except AgentError Datagram :=
  (w.send socket (status :: secret)).mapError (.reply socket)

/-- The request in what reading its file came to; it must not be too late
    to answer it. -/
def requestIn (a : Agent) (w : World) (name : String) (held : Except Fault String) :
    Except AgentError Request := do
  let contents ← held.mapError (.readRequest (a.requestPath name))
  let r ← (Request.parse name contents a.settings.bootMarker).mapError .malformed
  if r.isExpired w.now then throw (.expired r.id)
  return r

/-- Reads a request. -/
def openRequest (a : Agent) (w : World) (name : String) : Except AgentError Request :=
  a.requestIn w name (w.tree.readText (a.requestPath name))

/-- What is remarked on a request when it is read. -/
def remarksOn : (held : Except Fault String) → Report
  | .ok contents => ⟨Request.remarks contents, []⟩
  | .error _ => .silent

/-- The kind of key that a request wants. -/
def wanted (r : Request) : KeyKind :=
  if r.isBoot then .boot else .root

/-- A process number as log lines show it. -/
def showPid (pid : Option Nat) : String :=
  Text.optional toString pid

/-- Refuses a request, if the agent is set up to; a refusal that cannot be
    sent is only logged. -/
def refuse (a : Agent) (w : World) (r : Request) : Report :=
  if a.settings.sendNegativeAck then
    match reply w r.socket nack [] with
    | .ok d => .message d
    | .error e => .line (.warn s!"could not refuse {r.id}: {e.message}")
  else .silent

/-- Sends the key that a request wants. -/
def answer (a : Agent) (w : World) (r : Request) : Except AgentError KeyKind × Report :=
  let kind := wanted r
  let asked := Report.line
    (.info s!"request {r.id} from pid {showPid r.pid} wants the {kind.label} key")
  match w.tree.readSecret (a.keyPath kind) with
  | .error e => (.error (.keyFile e), asked ++ a.refuse w r)
  | .ok secret =>
      match reply w r.socket ack secret with
      | .error e => (.error e, asked)
      | .ok d =>
          (.ok kind, asked ++ .message d ++ .line
            (.info s!"answered {r.id} on {r.socket.display} ({secret.length} bytes)"))

/-- What a step of the agent comes to. -/
structure Outcome where
  result : Except AgentError Handled
  agent : Agent
  report : Report

/-- Handles the name of a file in the watched directory, when reading the
    file comes to `held`.  It is read only if the name is that of a request
    that has not been seen. -/
def handleHeld (a : Agent) (w : World) (name : String) (held : Except Fault String) : Outcome :=
  if !a.isRequest name then ⟨.ok .ignored, a, .silent⟩
  else if a.hasSeen name then ⟨.ok .duplicate, a, .silent⟩
  else
    match a.requestIn w name held with
    | .error e => ⟨.error e, a.markSeen name, remarksOn held⟩
    | .ok r =>
        let (result, report) := a.answer w r
        ⟨result.map .answered, a.markSeen name, remarksOn held ++ report⟩

/-- Handles the name of a file in the watched directory. -/
def handle (a : Agent) (w : World) (name : String) : Outcome :=
  a.handleHeld w name (w.tree.readText (a.requestPath name))

end Agent

end DiskKeys
