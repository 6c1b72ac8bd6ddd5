import DiskKeys.Proofs.Notices
import DiskKeys.Proofs.Agent.Acts

/-! # Delivery in order

    Events wait in a queue until the agent polls it, and a poll may leave
    some of them behind.  What a poll reads is always taken from the front,
    so the notices that it acts on, followed by those that still wait, are
    the notices that waited before it (`dispatched_append_waiting`).  An
    event that arrives goes to the back.  So over a whole run, whatever the
    batches and whatever becomes of the requests, the agent acts on the
    notices of all events in the order in which these came, on each of them
    once, except for those that still wait (`delivered_in_order`). -/

namespace DiskKeys

/-- The notices that events give, in order. -/
def Event.notices (events : List Event) : List Notice :=
  events.filterMap Event.notice?

theorem Event.notices_append (events more : List Event) :
    notices (events ++ more) = notices events ++ notices more :=
  List.filterMap_append

namespace EventQueue

/-- An event arrives behind those that wait. -/
def arrive (q : EventQueue) (e : Event) : EventQueue :=
  ⟨q.events.push e⟩

/-- What is queued merges with the event before it, or is lost, or it
    arrives: itself, or the one event that says that others are missing. -/
theorem push_eq (rules : QueueRules) (q : EventQueue) (e : Event) :
    q.push rules e = q ∨ q.push rules e = q.arrive e ∨ q.push rules e = q.arrive overflowed := by
  unfold push
  split
  · split
    · exact Or.inl rfl
    · exact Or.inr (Or.inr rfl)
  · split
    · split
      · exact Or.inl rfl
      · exact Or.inr (Or.inl rfl)
    · exact Or.inr (Or.inl rfl)

end EventQueue

/-- An agent, and the events that wait for it. -/
structure Mailbox where
  agent : Agent
  queue : EventQueue

namespace Mailbox

/-- What can happen next. -/
inductive Step where
  | arrive (e : Event)
  /-- The agent polls the queue, in whatever world there is by then. -/
  | poll (w : World)

/-- What the poll of a world comes to. -/
def poll (m : Mailbox) (w : World) : Agent.Polled :=
  m.agent.poll w m.queue

def step (m : Mailbox) : Step → Mailbox
  | .arrive e => { m with queue := m.queue.arrive e }
  | .poll w => ⟨(m.poll w).agent, (m.poll w).queue⟩

/-- The mailbox after steps. -/
def run (m : Mailbox) (steps : List Step) : Mailbox :=
  steps.foldl step m

/-- The notices of the events that wait. -/
def waiting (m : Mailbox) : List Notice :=
  Event.notices m.queue.events.toList

/-- The notices that a step dispatches. -/
def dispatched (m : Mailbox) : Step → List Notice
  | .arrive _ => []
  | .poll _ => m.queue.drain.1

/-- The notices that steps dispatch, one step after the other. -/
def delivered : Mailbox → List Step → List Notice
  | _, [] => []
  | m, st :: rest => m.dispatched st ++ delivered (m.step st) rest

/-- The events that arrive in steps. -/
def arrivals (steps : List Step) : List Event :=
  steps.filterMap fun st =>
    match st with
    | .arrive e => some e
    | .poll _ => none

/-! ## One step -/

/-- A poll does for each notice that it dispatches what this leads to, in
    order, whether or not the requests before it failed, and tells how many
    they were. -/
theorem poll_dispatched (m : Mailbox) (w : World) :
    Agent.Performs w m.agent ((m.dispatched (.poll w)).flatMap (m.agent.noticeActs w))
      ((m.poll w).agent, (m.poll w).report) ∧
    (m.poll w).drained = (m.dispatched (.poll w)).length :=
  ⟨Agent.performs_onNotices w m.agent m.queue.drain.1, rfl⟩

/-- What a poll dispatches waited in front of what waits after it. -/
theorem dispatched_append_waiting (m : Mailbox) (w : World) :
    m.dispatched (.poll w) ++ (m.step (.poll w)).waiting = m.waiting := by
  obtain ⟨read, hevents, hnotices⟩ := EventQueue.exists_read_drainEvents m.queue.events.toList
  have hwaited : m.waiting = Event.notices read
      ++ Event.notices (EventQueue.drainEvents m.queue.events.toList).2 := by
    rw [← Event.notices_append, ← hevents]
    rfl
  rw [hwaited]
  show (EventQueue.drainEvents m.queue.events.toList).1 ++ _ = _
  rw [hnotices]
  rfl

/-- One step keeps the order: what it dispatches and what waits after it
    are what waited before it and what arrived in it. -/
theorem step_in_order (m : Mailbox) (st : Step) :
    m.dispatched st ++ (m.step st).waiting = m.waiting ++ Event.notices (arrivals [st]) := by
  cases st with
  | arrive e =>
      show [] ++ Event.notices (m.queue.events.push e).toList = _
      rw [List.nil_append, Array.toList_push, Event.notices_append]
      rfl
  | poll w =>
      rw [dispatched_append_waiting]
      exact (List.append_nil _).symm

/-! ## Steps in a row -/

theorem arrivals_cons (st : Step) (rest : List Step) :
    arrivals (st :: rest) = arrivals [st] ++ arrivals rest := by
  rw [arrivals, arrivals, arrivals, ← List.filterMap_append, List.singleton_append]

/-- A run keeps the order. -/
theorem run_in_order (m : Mailbox) (steps : List Step) :
    m.delivered steps ++ (m.run steps).waiting
      = m.waiting ++ Event.notices (arrivals steps) := by
  induction steps generalizing m with
  | nil => exact (List.append_nil _).symm
  | cons st rest ih =>
      -- what the first step leaves waiting is where the rest goes on
      calc m.delivered (st :: rest) ++ (m.run (st :: rest)).waiting
          = m.dispatched st ++ ((m.step st).delivered rest ++ ((m.step st).run rest).waiting) :=
            List.append_assoc _ _ _
        _ = (m.dispatched st ++ (m.step st).waiting) ++ Event.notices (arrivals rest) := by
            rw [ih, List.append_assoc]
        _ = m.waiting ++ Event.notices (arrivals (st :: rest)) := by
            rw [step_in_order, List.append_assoc, ← Event.notices_append, ← arrivals_cons]

/-- **Delivery in order.**  However events arrive between polls and in
    whichever batches they are read: what the polls dispatch, one after the
    other, followed by the notices that still wait, are the notices of all
    events, in the order in which these came.  And a poll, whenever it
    comes, acts on every notice that it dispatches, in order and whatever
    fails, and its number is how many they were. -/
theorem delivered_in_order (m : Mailbox) (steps : List Step) :
    m.delivered steps ++ Event.notices (m.run steps).queue.events.toList
      = Event.notices (m.queue.events.toList ++ arrivals steps) ∧
    ∀ w : World,
      Agent.Performs w (m.run steps).agent
        (((m.run steps).dispatched (.poll w)).flatMap ((m.run steps).agent.noticeActs w))
        (((m.run steps).poll w).agent, ((m.run steps).poll w).report) ∧
      ((m.run steps).poll w).drained = ((m.run steps).dispatched (.poll w)).length := by
  constructor
  · rw [Event.notices_append]
    exact m.run_in_order steps
  · intro w
    exact (m.run steps).poll_dispatched w

/-- An agent that has seen nothing, and that nothing waits for. -/
def idle : Mailbox :=
  ⟨.fresh .standard (.ofString "boot.key") (.ofString "root.key"), .empty⟩

/-- Of two requests that arrive, one before a poll and one after it, the poll
    dispatches the first, though its file is not there, and the second
    waits. -/
theorem delivered_in_order_idle :
    let first : Event := ⟨.written, some (Text.Utf8.encode "ask.1")⟩
    let second : Event := ⟨.movedIn false, some (Text.Utf8.encode "ask.2")⟩
    let w : World := ⟨.empty, [], 0⟩
    let steps : List Step := [.arrive first, .poll w, .arrive second]
    idle.delivered steps ++ [.changed "ask.2"] = [.changed "ask.1", .changed "ask.2"] ∧
    (idle.run steps).agent.hasSeen "ask.1" = true ∧ ((idle.run steps).poll w).drained = 1 := by
  intro first second w steps
  obtain ⟨horder, hpolls⟩ := delivered_in_order idle steps
  have hwaiting : Event.notices (idle.run steps).queue.events.toList = [.changed "ask.2"] := by
    decide +kernel
  rw [hwaiting] at horder
  exact ⟨horder.trans (by decide +kernel), by decide +kernel,
    (hpolls w).2.trans (by decide +kernel)⟩

end Mailbox

end DiskKeys
