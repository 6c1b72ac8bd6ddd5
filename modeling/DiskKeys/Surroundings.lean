import DiskKeys.World
import DiskKeys.Notices

/-! # What happens around the agent

    Other programs change files and sockets at any time.  While a watch is
    set, every change posts its events: a write in the watched directory
    and a move into it or within it are noticed; removals, moves out of it
    and new directories are not.  The watch stays with what it was set on:
    it follows when that is moved, and ends when it is removed or
    replaced. -/

namespace DiskKeys

/-- A watch on a directory or file. -/
structure Watch where
  /-- Where the watched thing is now, as long as it exists. -/
  target : Option Location
  rules : QueueRules
  queue : EventQueue
  deriving DecidableEq, Repr

namespace Watch

/-- Queues an event. -/
def post (w : Watch) (e : Event) : Watch :=
  { w with queue := w.queue.push w.rules e }

/-- The name under which a location is known in a directory: its own name
    in it, or none if it is the watched thing itself. -/
def nameOf? (target loc : Location) : Option (Option Name) :=
  if loc = target then some none
  else if loc.dropLast = target then some loc.getLast?
  else none

/-- A file has been written. -/
def onWritten (w : Watch) (loc : Location) : Watch :=
  match w.target.bind (nameOf? · loc) with
  | some name => w.post ⟨.written, name⟩
  | none => w

/-- What was at a location is gone. -/
def onGone (w : Watch) (loc : Location) : Watch :=
  if w.target = some loc then { w.post ⟨.ended, none⟩ with target := none } else w

/-- Something has been moved, and `directory` says what. -/
def onMoved (w : Watch) (src dst : Location) (directory : Bool) : Watch :=
  if src = dst then w
  else
    let w := w.onGone dst
    match w.target with
    | none => w
    | some target =>
        let w := if dst.dropLast = target then w.post ⟨.movedIn directory, dst.getLast?⟩ else w
        { w with target := some (FileTree.moved src dst target) }

end Watch

/-- A world, the watch that is set in it, if any, and how the events of a new
    watch are queued. -/
structure Surroundings where
  world : World
  watch : Option Watch
  rules : QueueRules := {}
  deriving DecidableEq, Repr

/-- A change that some other program makes. -/
inductive Change where
  /-- Writes a file: a new one gets plain permissions, one that is there is
      overwritten in place. -/
  | put (p : Path) (contents : Bytes)
  | move (src dst : Path)
  | remove (p : Path)
  | makeDirectory (p : Path)
  | removeDirectory (p : Path)
  | bind (p : Path)
  | unbind (p : Path)
  deriving DecidableEq, Repr

namespace Surroundings

/-- Surroundings without a watch. -/
def ofWorld (w : World) : Surroundings := { world := w, watch := none }

/-- The same surroundings with another tree and the watch told of what
    became of it. -/
def withTree (s : Surroundings) (t : FileTree) (tell : Watch → Watch) : Surroundings :=
  { s with world := { s.world with tree := t }, watch := s.watch.map tell }

/-- Makes a change, if it can be made. -/
def apply (s : Surroundings) : Change → Except Fault Surroundings
  | .put p contents => do
      let (t, loc) ← s.world.tree.write p contents
      return s.withTree t (·.onWritten loc)
  | .move src dst => do
      let r ← s.world.tree.rename src dst
      let directory := s.world.tree.node? r.src = some .directory
      return s.withTree r.tree (·.onMoved r.src r.dst directory)
  | .remove p => do
      let (t, loc) ← s.world.tree.remove p
      return s.withTree t (·.onGone loc)
  | .makeDirectory p => do
      return s.withTree (← s.world.tree.makeDirectory p) id
  | .removeDirectory p => do
      let (t, loc) ← s.world.tree.removeDirectory p
      return s.withTree t (·.onGone loc)
  | .bind p => do
      return { s with world := ← s.world.bind p }
  | .unbind p => return { s with world := s.world.unbind p }

/-- Makes changes in order, up to the first that cannot be made. -/
def applyAll (s : Surroundings) (changes : List Change) : Except Fault Surroundings :=
  changes.foldlM apply s

/-- Writes to two files in a directory that do not merge and that overflow
    the queue of a watch on it; then the files are removed. -/
def flood (rules : QueueRules) (dir : Path) : List Change :=
  let noise (n : Nat) : Path := dir.join (.ofString s!"noise.{n}")
  (List.replicate (rules.limit / 2 + 1) [.put (noise 0) [], .put (noise 1) []]).flatten
    ++ [.remove (noise 0), .remove (noise 1)]

/-- Sets a watch on what a path names. -/
def startWatch (s : Surroundings) (p : Path) : Except Fault Surroundings :=
  if p.bytes.contains 0 then .error .nulInWatchedPath
  else do
    let (loc, _) ← s.world.tree.resolve p
    return { s with watch := some ⟨some loc, s.rules, .empty⟩ }

end Surroundings

end DiskKeys
