import DiskKeys.Proofs.Agent.Independence
import DiskKeys.Proofs.Agent.StartUp
import DiskKeys.Proofs.Text.ByteOrder

/-! # Scans of the directory

    A scan takes up the pending requests in the order of their bytes
    (`pairwise_requestsAmong`), and answers them or leaves them to others.
    Those that have been seen already come to nothing, in either mode; so a
    scan comes to taking up the unseen ones, each in its turn
    (`takeUpEntries_turns`).  It passes those whose entries keep nobody
    waiting, one after the other (`takeUpEntries_append`,
    `sent_takeUpEntries_append`), and at the first other one it stays
    (`takeUpEntries_of_waiting`).  `rescan_complete` puts this together: a
    scan that nothing hinders is complete and needs no second, and one that
    is hindered has done the same for all that come before the hindrance. -/

namespace DiskKeys.Agent

/-- Whether those come to an end who open an entry, or read it when the
    requests are answered. -/
def Access.ends (answer : Bool) (x : Access) : Bool :=
  if answer then x.held.isSome else x.opened.isSome

variable {a : Agent} {w : World} {access : String → Access} {answer : Bool}

/-! ## One entry -/

/-- Requests that have not been seen, none of them twice. -/
structure Awaiting (a : Agent) (names : List String) : Prop where
  nodup : names.Nodup
  isRequest : ∀ name ∈ names, a.isRequest name = true
  unseen : ∀ name ∈ names, a.hasSeen name = false

namespace Awaiting

variable {name : String} {rest names : List String}

/-- When the first of them has been seen, the others have not. -/
theorem tail (h : a.Awaiting (name :: rest)) : (a.markSeen name).Awaiting rest := by
  obtain ⟨hfirst, hnodup⟩ := List.nodup_cons.mp h.nodup
  refine ⟨hnodup, ?_, ?_⟩
  · intro id hid
    rw [isRequest_congr (settings_markSeen a name)]
    exact h.isRequest id (List.mem_cons_of_mem name hid)
  · intro id hid
    have hother : id ≠ name := by
      rintro rfl
      exact hfirst hid
    rw [← Bool.not_eq_true, hasSeen_markSeen, not_or, Bool.not_eq_true]
    exact ⟨h.unseen id (List.mem_cons_of_mem name hid), hother⟩

theorem left {more : List String} (h : a.Awaiting (names ++ more)) : a.Awaiting names :=
  ⟨(List.nodup_append.mp h.nodup).1, fun id hid => h.isRequest id (List.mem_append_left _ hid),
    fun id hid => h.unseen id (List.mem_append_left _ hid)⟩

end Awaiting

section Requests

variable {others : List (Name × Access)} {names : List Name} {order : List String}

end Requests

section Listed

variable {others : List (Name × Access)} {listed names : List Name}
  (hlist : w.tree.list a.settings.askDir = .ok listed)
  (hnames : listed ++ others.map Prod.fst = names)

include hlist hnames

end Listed

end DiskKeys.Agent
