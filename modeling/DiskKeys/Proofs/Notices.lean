import DiskKeys.Notices

/-! # What the queue of events does not lose

    Whatever the rules of the queue are, merging drops only events that are
    queued already, and once events are dropped because the queue is full
    there is one in it that says so.  So from the moment something happens
    to a name the queue *tells* of it, by an event of its own or by that
    one, until it is read (`tells_push_self`, `Tells.push`,
    `Tells.drain`). -/

namespace DiskKeys.EventQueue

/-- Whoever reads the queue is told of a name: an event about it is queued,
    or one that says that others are missing. -/
def Tells (q : EventQueue) (name : Name) : Prop :=
  (∃ e ∈ q.events, e.kind ≠ .overflow ∧ e.name = some name) ∨ overflowed ∈ q.events

/-! ## Queueing -/

/-- What is queued stays queued. -/
theorem mem_push_of_mem {q : EventQueue} {e : Event} (h : e ∈ q.events) (rules : QueueRules)
    (new : Event) : e ∈ (q.push rules new).events := by
  unfold push
  split
  · split
    · exact h
    · exact Array.mem_push_of_mem _ h
  · split
    · split
      · exact h
      · exact Array.mem_push_of_mem _ h
    · exact Array.mem_push_of_mem _ h

/-- A new event is queued, or the queue says that events are missing. -/
theorem mem_push_self (rules : QueueRules) (q : EventQueue) (e : Event) :
    e ∈ (q.push rules e).events ∨ overflowed ∈ (q.push rules e).events := by
  unfold push
  split
  · right
    split
    · rename_i hin
      exact Array.contains_iff_mem.mp hin
    · exact Array.mem_push_self
  · left
    split
    · rename_i last hlast
      split
      · -- it merges with the last one, which it equals
        rename_i hmerges
        have heq : e = last := by
          simp only [Event.mergesWith, Bool.and_eq_true, beq_iff_eq] at hmerges
          exact hmerges.2.1
        rw [heq]
        exact Array.mem_of_back? hlast
      · exact Array.mem_push_self
    · exact Array.mem_push_self

theorem Tells.push {q : EventQueue} {name : Name} (h : q.Tells name) (rules : QueueRules)
    (new : Event) : (q.push rules new).Tells name := by
  rcases h with ⟨e, he, hkind, hname⟩ | hmissing
  · exact Or.inl ⟨e, mem_push_of_mem he rules new, hkind, hname⟩
  · exact Or.inr (mem_push_of_mem hmissing rules new)

/-- A queue tells of what has just been queued. -/
theorem tells_push_self (rules : QueueRules) (q : EventQueue) {kind : EventKind}
    (hkind : kind ≠ .overflow) (name : Name) : (q.push rules ⟨kind, some name⟩).Tells name := by
  rcases mem_push_self rules q ⟨kind, some name⟩ with he | hmissing
  · exact Or.inl ⟨_, he, hkind, rfl⟩
  · exact Or.inr hmissing

/-! ## Reading -/

/-- Draining reads events from the front: they give the notices, and the
    rest stays as it is. -/
theorem exists_read_drainEvents (events : List Event) :
    ∃ read, events = read ++ (drainEvents events).2 ∧
      (drainEvents events).1 = read.filterMap Event.notice? := by
  induction events using drainEvents.induct with
  | case1 events batch notices hnone =>
      -- the last batch is read too, though it means nothing to the agent
      refine ⟨batch.1, ?_, ?_⟩
      · rw [drainEvents, if_pos hnone]
        exact (fitting_append bufferSize events).symm
      · rw [drainEvents, if_pos hnone]
        exact hnone.symm
  | case2 events batch notices hsome ih =>
      obtain ⟨read, hevents, hnotices⟩ := ih
      refine ⟨batch.1 ++ read, ?_, ?_⟩
      · rw [drainEvents, if_neg hsome, List.append_assoc, ← hevents]
        exact (fitting_append bufferSize events).symm
      · rw [drainEvents, if_neg hsome, List.filterMap_append, ← hnotices]

/-- Who drains a queue is told what it tells, or can still be told. -/
theorem Tells.drain {q : EventQueue} {name : Name} (h : q.Tells name) {text : String}
    (htext : Text.Utf8.decode? name = some text) :
    .changed text ∈ q.drain.1 ∨ .overflow ∈ q.drain.1 ∨ q.drain.2.Tells name := by
  obtain ⟨read, hevents, hnotices⟩ := exists_read_drainEvents q.events.toList
  have hnotice : ∀ {e n}, e ∈ read → e.notice? = some n → n ∈ q.drain.1 := by
    intro e n he hn
    show n ∈ (drainEvents q.events.toList).1
    rw [hnotices]
    exact List.mem_filterMap.mpr ⟨e, he, hn⟩
  have hsplit : ∀ {e}, e ∈ q.events → e ∈ read ∨ e ∈ q.drain.2.events := by
    intro e he
    rw [← Array.mem_toList_iff, hevents, List.mem_append] at he
    exact he.imp_right List.mem_toArray.mpr
  rcases h with ⟨e, he, hkind, hname⟩ | hmissing
  · rcases hsplit he with hread | hlater
    · refine Or.inl (hnotice hread ?_)
      simp [Event.notice?, hkind, hname, htext]
    · exact Or.inr (Or.inr (Or.inl ⟨e, hlater, hkind, hname⟩))
  · rcases hsplit hmissing with hread | hlater
    · exact Or.inr (Or.inl (hnotice hread rfl))
    · exact Or.inr (Or.inr (Or.inr hlater))

theorem not_tells_empty (name : Name) : ¬ empty.Tells name := by
  rintro (⟨e, he, -⟩ | hmissing)
  · exact absurd he (Array.not_mem_empty e)
  · exact absurd hmissing (Array.not_mem_empty _)

end DiskKeys.EventQueue
