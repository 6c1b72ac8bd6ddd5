import DiskKeys.Proofs.Surroundings
import DiskKeys.Proofs.Agent.Acts

/-! # Runs of the agent

    A scene is an agent and what is around it.  It changes step by step:
    other programs leave whatever surroundings they like, queued events and
    the clock included, or the agent is told of a name, sets its watch, or
    polls it.  Every step comes to acts (`performs_step`), and so a whole
    run has a ledger of the names that were handled in it; what was sent
    in the run is what their handlings sent, in order
    (`sent_eq_flatMap_ledger`). -/

namespace DiskKeys

/-- An agent and what is around it. -/
structure Scene where
  agent : Agent
  around : Surroundings

/-- What can happen next. -/
inductive Scene.Step where
  /-- Other programs leave these surroundings behind. -/
  | around (s : Surroundings)
  | handle (name : String)
  | watch
  | poll

/-- The messages that were sent on behalf of a name. -/
def Handling.sentFor (id : String) (ledger : List Handling) : List Datagram :=
  (ledger.filter (·.name = id)).flatMap Handling.sent

@[simp] theorem Handling.sentFor_nil (id : String) : sentFor id [] = [] := rfl

theorem Handling.sentFor_append (id : String) (ledger more : List Handling) :
    sentFor id (ledger ++ more) = sentFor id ledger ++ sentFor id more := by
  rw [sentFor, List.filter_append, List.flatMap_append]
  rfl

namespace Scene

/-- The world in which the agent acts. -/
def world (c : Scene) : World := c.around.world

/-- What a step comes to: the scene after it, and what the agent said.  An
    agent that cannot set its watch stays as it is. -/
def step (c : Scene) : Step → Scene × Report
  | .around s => ({ c with around := s }, .silent)
  | .handle name =>
      let o := c.agent.handle c.world name
      ({ c with agent := o.agent }, o.report)
  | .watch =>
      match c.agent.watch c.around with
      | .error _ => (c, .silent)
      | .ok (s, a, report) => (⟨a, s⟩, report)
  | .poll =>
      let (p, s) := c.agent.pollIn c.around
      (⟨p.agent, s⟩, p.report)

/-- The notices that a poll of the watch reads. -/
def notices (c : Scene) : List Notice :=
  match c.around.watch with
  | none => []
  | some watch => watch.queue.drain.1

/-- The acts that a step comes to. -/
def acts (c : Scene) : Step → List Act
  | .around _ => []
  | .handle name => [.handle name]
  | .watch =>
      match c.around.startWatch c.agent.settings.askDir with
      | .error _ => []
      | .ok _ => c.agent.rescanActs c.world c.agent.settings.answerExisting
  | .poll => c.notices.flatMap (c.agent.noticeActs c.world)

/-- The names that are handled in a step. -/
def stepLedger (c : Scene) (st : Step) : List Handling :=
  c.agent.ledger c.world (c.acts st)

/-- Setting a watch does not touch the world. -/
theorem world_startWatch {s s' : Surroundings} {p : Path} (h : s.startWatch p = .ok s') :
    s'.world = s.world := by
  unfold Surroundings.startWatch at h
  split at h
  · exact nomatch h
  · obtain ⟨⟨loc, node⟩, -, h⟩ := Except.bind_eq_ok.mp h
    cases h
    rfl

/-- Every step of a scene comes to acts of its agent. -/
theorem performs_step (c : Scene) (st : Step) :
    Agent.Performs c.world c.agent (c.acts st) ((c.step st).1.agent, (c.step st).2) := by
  cases st with
  | around s => exact ⟨rfl, rfl⟩
  | handle name =>
      refine ⟨rfl, ?_⟩
      simp [step, acts, Agent.ledger, Handling.sent]
  | watch =>
      cases h : c.around.startWatch c.agent.settings.askDir with
      | error e =>
          simp only [step, acts, Agent.watch, h]
          exact ⟨rfl, rfl⟩
      | ok s =>
          simp only [step, acts, Agent.watch, h, Except.mapError_ok, Except.ok_bind,
            Except.pure_eq_ok, world_startWatch h]
          exact Agent.performs_takeStock c.world c.agent
  | poll =>
      cases h : c.around.watch with
      | none =>
          simp only [step, acts, Agent.pollIn, notices, h]
          exact ⟨rfl, rfl⟩
      | some watch =>
          simp only [step, acts, Agent.pollIn, Agent.poll, notices, h]
          exact Agent.performs_onNotices c.world c.agent watch.queue.drain.1

theorem agent_step (c : Scene) (st : Step) :
    (c.step st).1.agent = c.agent.perform c.world (c.acts st) :=
  (c.performs_step st).agent

/-! ## Steps in a row -/

/-- The scene after steps. -/
def run (c : Scene) (steps : List Step) : Scene :=
  steps.foldl (fun c st => (c.step st).1) c

/-- The messages that are sent in steps. -/
def sent : Scene → List Step → List Datagram
  | _, [] => []
  | c, st :: rest => (c.step st).2.sent ++ sent (c.step st).1 rest

/-- The names that are handled in steps. -/
def ledger : Scene → List Step → List Handling
  | _, [] => []
  | c, st :: rest => c.stepLedger st ++ ledger (c.step st).1 rest

/-- All that is sent is sent on behalf of a name that is handled. -/
theorem sent_eq_flatMap_ledger (c : Scene) (steps : List Step) :
    c.sent steps = (c.ledger steps).flatMap Handling.sent := by
  induction steps generalizing c with
  | nil => rfl
  | cons st rest ih =>
      rw [sent, ledger, List.flatMap_append, ← ih, (c.performs_step st).sent]
      rfl

/-- No step changes the settings. -/
theorem settings_step (c : Scene) (st : Step) :
    (c.step st).1.agent.settings = c.agent.settings := by
  rw [agent_step, Agent.settings_perform]

theorem settings_run (c : Scene) (steps : List Step) :
    (c.run steps).agent.settings = c.agent.settings := by
  induction steps generalizing c with
  | nil => rfl
  | cons st rest ih =>
      show ((c.step st).1.run rest).agent.settings = _
      rw [ih, settings_step]

/-- No step changes where the keys are. -/
theorem keyPath_step (c : Scene) (st : Step) (kind : KeyKind) :
    (c.step st).1.agent.keyPath kind = c.agent.keyPath kind := by
  rw [agent_step, Agent.keyPath_perform]

theorem keyPath_run (c : Scene) (steps : List Step) (kind : KeyKind) :
    (c.run steps).agent.keyPath kind = c.agent.keyPath kind := by
  induction steps generalizing c with
  | nil => rfl
  | cons st rest ih =>
      show ((c.step st).1.run rest).agent.keyPath kind = _
      rw [ih, keyPath_step]

/-- What has been seen before a step has been seen after it. -/
theorem hasSeen_step {c : Scene} {id : String} (st : Step) (h : c.agent.hasSeen id = true) :
    (c.step st).1.agent.hasSeen id = true := by
  rw [agent_step]
  exact Agent.hasSeen_perform c.world (c.acts st) h

/-! ## A specimen -/

/-- Surroundings without any files. -/
def bare : Surroundings := .ofWorld ⟨.empty, [], 5⟩

/-- A small scene: one request for the boot key lies in the directory of an
    agent that answers what is there when it starts. -/
def specimen : Scene where
  agent := .fresh { Settings.standard with askDir := .ofString "ask", answerExisting := true }
    (.ofString "boot.key") (.ofString "root.key")
  around := bare
    |>.attempt (.makeDirectory (.ofString "ask"))
    |>.attempt (.put (.ofString "boot.key") [1, 2, 3])
    |>.attempt (.bind (.ofString "s"))
    |>.attempt (.put (.ofString "ask/ask.1")
      (Text.Utf8.encode "[Ask]\nSocket=s\nMessage=boot\n"))

theorem becomes_specimen : bare.Becomes specimen.around :=
  ((Surroundings.becomes_attempt _ _).trans (Surroundings.becomes_attempt _ _)).trans
    ((Surroundings.becomes_attempt _ _).trans (Surroundings.becomes_attempt _ _))

end Scene

end DiskKeys
