import DiskKeys.Agent.Answer
import DiskKeys.Surroundings

/-! # Watching for requests

    The agent sets its watch first and takes stock of the directory
    afterwards, so that no request falls between the two.  From then on it
    handles, poll by poll, all that it is told of; when notices were lost
    it looks through the directory again.

    A directory can hold more than files, directories and sockets.  Of a
    pipe, a link or a device nothing counts but what becomes of those who
    open and read it: they may wait for good, as in front of a pipe that
    nobody writes to, and then so does the agent. -/

namespace DiskKeys.Agent

/-- What is said in the end about a name that has been handled; a failure
    is logged and stops nothing. -/
def conclude (name : String) (o : Outcome) : Agent × Report :=
  match o.result with
  | .ok .duplicate =>
      (o.agent, o.report ++ .line (.debug s!"request {name} already handled"))
  | .ok _ => (o.agent, o.report)
  | .error e =>
      (o.agent, o.report ++ .line (.warn s!"skipping request {name}: {e.message}"))

/-- Handles a name. -/
def dispatch (a : Agent) (w : World) (name : String) : Agent × Report :=
  conclude name (a.handle w name)

/-- Leaves a request to others; its file is opened all the same, which comes
    to `opened`. -/
def acknowledgeOpened (a : Agent) (name : String) (opened : Except Fault Unit) : Agent × Report :=
  let report : Report := match opened with
    | .ok () => .silent
    | .error e =>
        .line (.warn
          s!"could not open pending request {(a.requestPath name).display}: {e.message}")
  (a.markSeen name, report ++ .line (.debug s!"acknowledged pending request {name}"))

/-- Leaves a request to others. -/
def acknowledge (a : Agent) (w : World) (name : String) : Agent × Report :=
  a.acknowledgeOpened name (w.tree.probe (a.requestPath name))

/-- Does the same for each of a list in turn. -/
def forEach {α : Type} (step : Agent → α → Agent × Report) (a : Agent) : List α → Agent × Report
  | [] => (a, .silent)
  | x :: rest =>
      let (a, report) := step a x
      let (a, reports) := forEach step a rest
      (a, report ++ reports)

/-! ## Looking through the directory -/

/-- The requests among names, in the order of their bytes. -/
def requestsAmong (a : Agent) (names : List Name) : List String :=
  ((names.filterMap Text.Utf8.decode?).filter a.isRequest).mergeSort (fun x y => decide (x ≤ y))

/-- The requests in the watched directory. -/
def pendingRequests (a : Agent) (w : World) : Except Fault (List String) := do
  return a.requestsAmong (← w.tree.list a.settings.askDir)

/-- What is done about a request that is found in the directory. -/
def takeUp (answer : Bool) (w : World) (a : Agent) (name : String) : Agent × Report :=
  if answer then a.dispatch w name
  else if a.hasSeen name then (a, .silent)
  else a.acknowledge w name

/-- What becomes of those who open an entry, and of those who read it as
    text; none if they wait for good. -/
structure Access where
  opened : Option (Except Fault Unit)
  held : Option (Except Fault String)

/-- An entry of the tree keeps nobody waiting. -/
def accessInTree (a : Agent) (w : World) (name : String) : Access :=
  ⟨some (w.tree.probe (a.requestPath name)), some (w.tree.readText (a.requestPath name))⟩

/-- What becomes of those who open the entry with a name, in a directory with
    entries besides those of the tree. -/
def accessTo (a : Agent) (w : World) (others : List (Name × Access)) (name : String) : Access :=
  (others.lookup (Text.Utf8.encode name)).getD (a.accessInTree w name)

/-- How far the agent has come, and whether it has come to an end or waits
    for good. -/
structure Progress where
  agent : Agent
  report : Report
  ended : Bool

/-- What is done about a request that is found in the directory, when its
    entry may keep the agent waiting.  A request that has been seen is not
    even opened. -/
def takeUpEntry (answer : Bool) (w : World) (access : Access) (a : Agent) (name : String) :
    Progress :=
  if a.hasSeen name then endedWith (takeUp answer w a name)
  else if answer then
    match access.held with
    | some held => endedWith (conclude name (a.handleHeld w name held))
    | none => ⟨a.markSeen name, .silent, false⟩
  else
    match access.opened with
    | some opened => endedWith (a.acknowledgeOpened name opened)
    | none => ⟨a, .silent, false⟩
where
  endedWith (done : Agent × Report) : Progress := ⟨done.1, done.2, true⟩

/-- Does this about each of a list in turn, up to one that keeps the agent
    waiting. -/
def takeUpEntries (answer : Bool) (w : World) (access : String → Access) (a : Agent) :
    List String → Progress
  | [] => ⟨a, .silent, true⟩
  | name :: rest =>
      let first := takeUpEntry answer w (access name) a name
      if first.ended then
        let later := takeUpEntries answer w access first.agent rest
        { later with report := first.report ++ later.report }
      else first

/-- Looks through a directory with entries besides those of the tree, and
    answers the requests in it or leaves them to others. -/
def rescanAmong (a : Agent) (w : World) (others : List (Name × Access)) (answer : Bool) :
    Progress :=
  match w.tree.list a.settings.askDir with
  | .error e =>
      ⟨a, .line (.warn s!"failed to list {a.settings.askDir.display}: {e.message}"), true⟩
  | .ok names =>
      takeUpEntries answer w (a.accessTo w others) a
        (a.requestsAmong (names ++ others.map Prod.fst))

/-- Looks through the directory. -/
def rescan (a : Agent) (w : World) (answer : Bool) : Agent × Report :=
  let done := a.rescanAmong w [] answer
  (done.agent, done.report)

/-- Reports that the watch is set and takes stock of the requests that are
    there. -/
def takeStock (a : Agent) (w : World) : Agent × Report :=
  let started := Report.line
    (.info s!"watching {a.settings.askDir.display} for password requests")
  let (a, report) := a.rescan w a.settings.answerExisting
  (a, started ++ report)

/-- Starts the agent. -/
def watch (a : Agent) (s : Surroundings) :
    Except AgentError (Surroundings × Agent × Report) := do
  let s ← (s.startWatch a.settings.askDir).mapError (.watch a.settings.askDir)
  return (s, a.takeStock s.world)

/-- Acts on a notice. -/
def onNotice (w : World) (a : Agent) : Notice → Agent × Report
  | .changed name => a.dispatch w name
  | .overflow =>
      let warned := Report.line (.warn "notification queue overflowed, rescanning")
      let (a, report) := a.rescan w true
      (a, warned ++ report)

/-- Acts on notices in order. -/
def onNotices (a : Agent) (w : World) (notices : List Notice) : Agent × Report :=
  forEach (onNotice w) a notices

/-- What a poll comes to. -/
structure Polled where
  /-- How many notices were read. -/
  drained : Nat
  agent : Agent
  queue : EventQueue
  report : Report

/-- Reads the notices that have come, and acts on them. -/
def poll (a : Agent) (w : World) (q : EventQueue) : Polled :=
  let (notices, q) := q.drain
  let (a, report) := a.onNotices w notices
  ⟨notices.length, a, q, report⟩

/-- A poll of the watch that is set in the surroundings. -/
def pollIn (a : Agent) (s : Surroundings) : Polled × Surroundings :=
  match s.watch with
  | none => (⟨0, a, .empty, .silent⟩, s)
  | some watch =>
      let p := a.poll s.world watch.queue
      (p, { s with watch := some { watch with queue := p.queue } })

end DiskKeys.Agent
