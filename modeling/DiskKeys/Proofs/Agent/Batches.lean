import DiskKeys.Proofs.Agent.Delivery
import DiskKeys.Proofs.Agent.Run

/-! # What a single poll reads

    A poll reads the events that wait batch by batch, as many as fit in the
    buffer at a time, and it takes a batch without a notice for the end of
    the queue.  It is that if all events mean something to the agent.  But
    events about names that are no text can fill a batch of their own; then
    the poll stops there and leaves what is behind it to a later one.

    So a poll handles all that had come exactly when no batch but the last
    is silent (`poll_by_batches`), and there are queues from which it
    handles nothing although a request waits in them
    (`request_behind_strangers`). -/

namespace DiskKeys

namespace EventQueue

theorem length_fitting_lt {room : Nat} {events : List Event} (h : (fitting room events).1 ≠ []) :
    (fitting room events).2.length < events.length := by
  have hlength := congrArg List.length (fitting_append room events)
  have hpos := List.length_pos_iff.mpr h
  rw [List.length_append] at hlength
  omega

/-- The batches in which events are read one after the other.  An event that
    no buffer holds is never read: it stays, with all behind it, after a
    read that gets nothing. -/
def batches : List Event → List (List Event)
  | [] => []
  | e :: rest =>
      let batch := fitting bufferSize (e :: rest)
      if batch.1 = [] then [[], e :: rest] else batch.1 :: batches batch.2
termination_by events => events.length
decreasing_by
  rename_i h
  exact length_fitting_lt h

/-- Splits batches behind the first that holds no notice. -/
def untilSilent : List (List Event) → List (List Event) × List (List Event)
  | [] => ([], [])
  | batch :: rest =>
      if Event.notices batch = [] then ([batch], rest)
      else
        let (read, unread) := untilSilent rest
        (batch :: read, unread)

/-! ## Batches -/

/-- An event that comes first and that the buffer does not hold keeps back
    all others. -/
theorem batches_of_stuck {events : List Event} (hsome : events ≠ [])
    (hstuck : (fitting bufferSize events).1 = []) : batches events = [[], events] := by
  cases events with
  | nil => exact absurd rfl hsome
  | cons e rest => rw [batches, if_pos hstuck]

/-- A batch that is read comes in front of those behind it. -/
theorem batches_of_read {events : List Event} (hread : (fitting bufferSize events).1 ≠ []) :
    batches events = (fitting bufferSize events).1 :: batches (fitting bufferSize events).2 := by
  cases events with
  | nil => exact absurd rfl hread
  | cons e rest => rw [batches, if_neg hread]

/-- Every event is in a batch, in order. -/
theorem flatten_batches (events : List Event) : (batches events).flatten = events := by
  induction events using batches.induct with
  | case1 => rw [batches, List.flatten_nil]
  | case2 e rest batch hstuck =>
      rw [batches_of_stuck (List.cons_ne_nil e rest) hstuck]
      exact List.append_nil (e :: rest)
  | case3 e rest batch hread ih =>
      rw [batches_of_read hread, List.flatten_cons, ih]
      exact fitting_append bufferSize (e :: rest)

/-- The first batch is what the buffer holds, and the others are made of
    what it does not. -/
theorem exists_batches_eq {events : List Event} (hsome : events ≠ []) :
    ∃ later, batches events = (fitting bufferSize events).1 :: later ∧
      later.flatten = (fitting bufferSize events).2 ∧
      (later = [] ↔ (fitting bufferSize events).2 = []) := by
  by_cases hread : (fitting bufferSize events).1 = []
  · have hstays : (fitting bufferSize events).2 = events := by
      have hall := fitting_append bufferSize events
      rwa [hread, List.nil_append] at hall
    rw [hread, hstays]
    exact ⟨[events], batches_of_stuck hsome hread, List.append_nil events,
      iff_of_false (List.cons_ne_nil _ _) hsome⟩
  · refine ⟨batches (fitting bufferSize events).2, batches_of_read hread, flatten_batches _, ?_⟩
    constructor
    · intro hnone
      rw [← flatten_batches (fitting bufferSize events).2, hnone, List.flatten_nil]
    · intro hnone
      rw [hnone, batches]

/-- All but the last of some batches. -/
theorem forall_mem_dropLast_cons {P : List Event → Prop} (batch : List Event)
    (later : List (List Event)) :
    (∀ b ∈ (batch :: later).dropLast, P b) ↔
      later = [] ∨ (P batch ∧ ∀ b ∈ later.dropLast, P b) := by
  cases later with
  | nil => exact iff_of_true (List.forall_mem_nil P) (Or.inl rfl)
  | cons next rest =>
      rw [List.dropLast_cons_cons, List.forall_mem_cons]
      exact (or_iff_right (List.cons_ne_nil next rest)).symm

theorem untilSilent_of_silent {batch : List Event} (h : Event.notices batch = [])
    (rest : List (List Event)) : untilSilent (batch :: rest) = ([batch], rest) := if_pos h

theorem untilSilent_of_notices {batch : List Event} (h : Event.notices batch ≠ [])
    (rest : List (List Event)) :
    untilSilent (batch :: rest) = (batch :: (untilSilent rest).1, (untilSilent rest).2) := if_neg h

/-! ## Draining -/

theorem drainEvents_of_silent {events : List Event}
    (h : Event.notices (fitting bufferSize events).1 = []) :
    drainEvents events = ([], (fitting bufferSize events).2) := by
  rw [Event.notices] at h
  rw [drainEvents, if_pos h]

theorem drainEvents_of_notices {events : List Event}
    (h : Event.notices (fitting bufferSize events).1 ≠ []) :
    drainEvents events = (Event.notices (fitting bufferSize events).1
      ++ (drainEvents (fitting bufferSize events).2).1,
      (drainEvents (fitting bufferSize events).2).2) := by
  rw [Event.notices] at h
  rw [drainEvents, if_neg h]
  rfl

/-- What means something has been read. -/
theorem ne_nil_of_notices {events : List Event} (h : Event.notices events ≠ []) : events ≠ [] := by
  rintro rfl
  exact h rfl

/-- Draining yields the notices of the batches up to the first that holds
    none, and leaves those behind it. -/
theorem drainEvents_eq (events : List Event) :
    drainEvents events = (Event.notices (untilSilent (batches events)).1.flatten,
      (untilSilent (batches events)).2.flatten) := by
  induction events using drainEvents.induct with
  | case1 events batch notices hsilent =>
      replace hsilent : Event.notices (fitting bufferSize events).1 = [] := hsilent
      rw [drainEvents_of_silent hsilent]
      by_cases hsome : events = []
      · rw [hsome, batches]
        rfl
      · obtain ⟨later, hbatches, hlater, -⟩ := exists_batches_eq hsome
        rw [hbatches, untilSilent_of_silent hsilent, hlater, List.flatten_singleton, hsilent]
  | case2 events batch notices hnotices ih =>
      replace hnotices : Event.notices (fitting bufferSize events).1 ≠ [] := hnotices
      replace ih : drainEvents (fitting bufferSize events).2 = _ := ih
      rw [drainEvents_of_notices hnotices, batches_of_read (ne_nil_of_notices hnotices),
        untilSilent_of_notices hnotices, ih, List.flatten_cons, Event.notices_append]

/-- Draining leaves nothing exactly when no batch but the last is silent. -/
theorem drainEvents_snd_eq_nil_iff (events : List Event) :
    (drainEvents events).2 = [] ↔
      ∀ batch ∈ (batches events).dropLast, Event.notices batch ≠ [] := by
  induction events using drainEvents.induct with
  | case1 events batch notices hsilent =>
      replace hsilent : Event.notices (fitting bufferSize events).1 = [] := hsilent
      rw [drainEvents_of_silent hsilent]
      by_cases hsome : events = []
      · rw [hsome, batches]
        exact iff_of_true rfl (List.forall_mem_nil _)
      · -- a silent batch must be the last
        obtain ⟨later, hbatches, -, hlater⟩ := exists_batches_eq hsome
        rw [hbatches, forall_mem_dropLast_cons, ← hlater]
        exact (or_iff_left fun h => h.1 hsilent).symm
  | case2 events batch notices hnotices ih =>
      replace hnotices : Event.notices (fitting bufferSize events).1 ≠ [] := hnotices
      replace ih : (drainEvents (fitting bufferSize events).2).2 = [] ↔ _ := ih
      rw [drainEvents_of_notices hnotices, batches_of_read (ne_nil_of_notices hnotices),
        forall_mem_dropLast_cons, ih]
      constructor
      · exact fun h => Or.inr ⟨hnotices, h⟩
      · rintro (hlast | ⟨-, h⟩)
        · rw [hlast]
          exact List.forall_mem_nil _
        · exact h

end EventQueue

namespace Agent

/-- The poll that acts on these notices, in order, and leaves these events
    behind. -/
def polled (a : Agent) (w : World) (notices : List Notice) (later : List Event) : Polled :=
  ⟨notices.length, (a.onNotices w notices).1, ⟨later.toArray⟩, (a.onNotices w notices).2⟩

theorem poll_eq (a : Agent) (w : World) (q : EventQueue) :
    a.poll w q = a.polled w (EventQueue.drainEvents q.events.toList).1
      (EventQueue.drainEvents q.events.toList).2 := rfl

/-- **What a single poll reads.**  The events that wait are read in batches
    that hold all of them in order.  A poll acts on the notices of the
    batches up to the first that holds none, and leaves what is behind that
    one in the queue.  So it acts on every notice that the queue carries, in
    order, and leaves it empty, exactly when every batch but the last holds
    a notice. -/
theorem poll_by_batches (a : Agent) (w : World) (q : EventQueue) :
    (EventQueue.batches q.events.toList).flatten = q.events.toList ∧
    a.poll w q = a.polled w
      (Event.notices (EventQueue.untilSilent (EventQueue.batches q.events.toList)).1.flatten)
      (EventQueue.untilSilent (EventQueue.batches q.events.toList)).2.flatten ∧
    (a.poll w q = a.polled w (Event.notices q.events.toList) [] ↔
      ∀ batch ∈ (EventQueue.batches q.events.toList).dropLast, Event.notices batch ≠ []) := by
  refine ⟨EventQueue.flatten_batches _, ?_, ?_⟩
  · rw [poll_eq, EventQueue.drainEvents_eq]
  · rw [← EventQueue.drainEvents_snd_eq_nil_iff]
    constructor
    · intro h
      have hqueue := congrArg (fun p : Polled => p.queue.events.toList) h
      exact hqueue
    · intro hempty
      -- what is read is all there is
      obtain ⟨read, hevents, hnotices⟩ := EventQueue.exists_read_drainEvents q.events.toList
      rw [hempty, List.append_nil] at hevents
      rw [poll_eq, hempty, hnotices, ← hevents]
      rfl

end Agent

/-! ## A request that is left behind -/

/-- The notice of a file that has been written under a long name, which is
    no text. -/
def stranger (n : Nat) : Event :=
  ⟨.written, some (0xff :: .ofNat n :: List.replicate 238 0x30)⟩

/-- The notice of the request in the specimen. -/
def awaitedRequest : Event :=
  ⟨.written, some (Text.Utf8.encode "ask.1")⟩

/-- Fifteen such files have been written, and then the request. -/
def strangersFirst : EventQueue :=
  ((List.range 15).map stranger ++ [awaitedRequest]).foldl (EventQueue.push {}) .empty

/-- Strangers that fill a batch keep the request behind them from being
    handled: the poll acts on nothing, though it would answer the request,
    and leaves it in the queue. -/
theorem request_behind_strangers :
    Event.notices strangersFirst.events.toList = [.changed "ask.1"] ∧
    (Scene.specimen.agent.onNotices Scene.specimen.world [.changed "ask.1"]).2.sent
      = [⟨0, [Agent.ack, 1, 2, 3]⟩] ∧
    Scene.specimen.agent.poll Scene.specimen.world strangersFirst
      = Scene.specimen.agent.polled Scene.specimen.world [] [awaitedRequest] ∧
    Scene.specimen.agent.poll Scene.specimen.world strangersFirst
      ≠ Scene.specimen.agent.polled Scene.specimen.world
          (Event.notices strangersFirst.events.toList) [] := by
  have hcarried : Event.notices strangersFirst.events.toList = [.changed "ask.1"] := by
    decide +kernel
  have hbatch : EventQueue.fitting EventQueue.bufferSize strangersFirst.events.toList
      = ((List.range 15).map stranger, [awaitedRequest]) := by
    decide +kernel
  have hsilent : Event.notices ((List.range 15).map stranger) = [] := by
    decide +kernel
  have hpoll : Scene.specimen.agent.poll Scene.specimen.world strangersFirst
      = Scene.specimen.agent.polled Scene.specimen.world [] [awaitedRequest] := by
    have hnone : Event.notices (EventQueue.fitting EventQueue.bufferSize
        strangersFirst.events.toList).1 = [] := by
      rw [hbatch]
      exact hsilent
    rw [Agent.poll_eq, EventQueue.drainEvents_of_silent hnone, hbatch]
  refine ⟨hcarried, by decide +kernel, hpoll, ?_⟩
  rw [hpoll, hcarried]
  intro hsame
  have hdrained := congrArg Agent.Polled.drained hsame
  exact absurd hdrained (by decide)

end DiskKeys
