import DiskKeys.Proofs.Agent.Handling
import DiskKeys.Proofs.Request.Grammar
import DiskKeys.Proofs.Text.Decimal

/-! # Deadlines and process numbers

    A request's numbers are those that its last fields spell, exactly: an
    earlier field never counts, a number that is too large is as good as
    none and is never taken for a smaller one, and a deadline of zero is no
    deadline (`deadline?_eq_some_iff`, `pid?_eq_some_iff`).  So a request has
    expired when the number that is written there has come, and then the
    agent sends nothing (`parse_numbers`). -/

namespace DiskKeys

namespace Request

/-! ## The last field with a key -/

/-- The last field with a key has this value. -/
def IsLast (key : Key) (fields : List Field) (value : List Char) : Prop :=
  ∃ before after, fields = before ++ ⟨key, value⟩ :: after ∧ ∀ f ∈ after, f.key ≠ key

theorem valuesOf_eq_nil {key : Key} {fields : List Field} (h : ∀ f ∈ fields, f.key ≠ key) :
    valuesOf key fields = [] := by
  rw [valuesOf, List.map_eq_nil_iff, List.filter_eq_nil_iff]
  exact fun f hf => by simpa using h f hf

theorem getLast?_valuesOf_eq_some_iff {key : Key} {fields : List Field} {value : List Char} :
    (valuesOf key fields).getLast? = some value ↔ IsLast key fields value := by
  constructor
  · intro h
    have hlast := lastValue_getLastD key fields
    rw [List.getLastD_eq_getLast?, h, Option.getD_some] at hlast
    cases hlast with
    | missing none =>
        rw [valuesOf_eq_nil none] at h
        cases h
    | last none => exact ⟨_, _, rfl, none⟩
  · rintro ⟨before, after, rfl, none⟩
    have hone : valuesOf key [⟨key, value⟩] = [value] := by simp [valuesOf]
    rw [List.append_cons, valuesOf_append, valuesOf_append, valuesOf_eq_nil none, hone,
      List.append_nil, List.getLast?_concat]

/-- The last field with a key spells a number. -/
def LastSpells (key : Key) (fields : List Field) (n : Nat) : Prop :=
  ∃ value, IsLast key fields value ∧ Text.Spells value n

theorem getLast?_bind_decimal?_eq_some_iff {key : Key} {fields : List Field} {bound n : Nat} :
    (valuesOf key fields).getLast?.bind (Text.decimal? bound) = some n ↔
      LastSpells key fields n ∧ n ≤ bound := by
  rw [Option.bind_eq_some_iff]
  simp only [getLast?_valuesOf_eq_some_iff, Text.decimal?_eq_some_iff]
  constructor
  · rintro ⟨value, hlast, hspells, hbound⟩
    exact ⟨⟨value, hlast, hspells⟩, hbound⟩
  · rintro ⟨⟨value, hlast, hspells⟩, hbound⟩
    exact ⟨value, hlast, hspells, hbound⟩

/-- There is only one such number. -/
theorem LastSpells.unique {key : Key} {fields : List Field} {m n : Nat}
    (hm : LastSpells key fields m) (hn : LastSpells key fields n) : m = n := by
  obtain ⟨value, hlast, hspells⟩ := hm
  obtain ⟨value', hlast', hspells'⟩ := hn
  have heq := (getLast?_valuesOf_eq_some_iff.mpr hlast).symm.trans
    (getLast?_valuesOf_eq_some_iff.mpr hlast')
  obtain rfl := Option.some.inj heq
  exact hspells.unique hspells'

/-! ## The numbers of a request -/

/-- The deadline that fields set, in microseconds. -/
def Deadline (fields : List Field) (n : Nat) : Prop :=
  LastSpells .notAfter fields n ∧ 1 ≤ n ∧ n ≤ 2 ^ 64 - 1

/-- The process number that fields give. -/
def ProcessNumber (fields : List Field) (n : Nat) : Prop :=
  LastSpells .pid fields n ∧ n ≤ 2 ^ 32 - 1

theorem deadline?_eq_some_iff {fields : List Field} {n : Nat} :
    deadline? (valuesOf .notAfter fields) = some n ↔ Deadline fields n := by
  rw [deadline?, Option.filter_eq_some_iff, getLast?_bind_decimal?_eq_some_iff,
    decide_eq_true_eq, Deadline]
  constructor
  · rintro ⟨⟨hlast, hbound⟩, hzero⟩
    exact ⟨hlast, Nat.one_le_iff_ne_zero.mpr hzero, hbound⟩
  · rintro ⟨hlast, hone, hbound⟩
    exact ⟨⟨hlast, hbound⟩, Nat.one_le_iff_ne_zero.mp hone⟩

theorem pid?_eq_some_iff {fields : List Field} {n : Nat} :
    pid? (valuesOf .pid fields) = some n ↔ ProcessNumber fields n :=
  getLast?_bind_decimal?_eq_some_iff

end Request

namespace Agent

/-- Nothing is sent for a request that has expired. -/
theorem sent_handle_of_expired {a : Agent} {w : World} {id contents : String} {r : Request}
    (hread : w.tree.readText (a.requestPath id) = .ok contents)
    (hparse : Request.parse id contents a.settings.bootMarker = .ok r)
    (hexpired : r.isExpired w.now = true) : (a.handle w id).report.sent = [] := by
  rw [sent_handle, messageFor?, openRequest_of_expired hread hparse hexpired]
  split <;> rfl

end Agent

namespace Request

/-- **Deadlines and process numbers are exact.**  An accepted text has a
    section and fields, and its numbers are those that the last of these
    spell: a deadline up to 64 bits that is not zero, a process number up to
    32 bits, and none otherwise.  It has expired when that deadline has
    come, and never by a number that is too large; and an agent that finds
    it expired sends nothing for it. -/
theorem parse_numbers {id contents marker : String} {r : Request}
    (h : parse id contents marker = .ok r) :
    ∃ lines inside fields, Text.HasLines contents.toList lines ∧ HasSection lines inside ∧
      Says inside fields ∧
      (∀ n, r.notAfter = some n ↔ Deadline fields n) ∧
      (∀ n, r.pid = some n ↔ ProcessNumber fields n) ∧
      (∀ now, r.isExpired now = true ↔ ∃ n, Deadline fields n ∧ n ≤ now) ∧
      (∀ n, LastSpells .notAfter fields n → 2 ^ 64 ≤ n → ∀ now, r.isExpired now = false) ∧
      ∀ (a : Agent) (w : World), a.settings.bootMarker = marker →
        w.tree.readText (a.requestPath id) = .ok contents → r.isExpired w.now = true →
          (a.handle w id).report.sent = [] := by
  obtain ⟨fields, socket, hfields, -, hr⟩ := parse_eq_ok.mp h
  obtain ⟨lines, inside, hlines, hinside, hsays⟩ := fields?_eq_some_iff.mp hfields
  have hdeadline : ∀ n, r.notAfter = some n ↔ Deadline fields n := by
    intro n
    rw [hr]
    exact deadline?_eq_some_iff
  have hexpired : ∀ now, r.isExpired now = true ↔ ∃ n, Deadline fields n ∧ n ≤ now := by
    intro now
    simp only [isExpired_eq_true_iff, hdeadline]
  refine ⟨lines, inside, fields, hlines, hinside, hsays, hdeadline, ?_, hexpired, ?_, ?_⟩
  · intro n
    rw [hr]
    exact pid?_eq_some_iff
  · intro n hlast hlarge now
    rw [← Bool.not_eq_true, hexpired]
    rintro ⟨m, ⟨hlast', -, hbound⟩, -⟩
    obtain rfl := hlast.unique hlast'
    omega
  · rintro a w rfl hread
    exact Agent.sent_handle_of_expired hread h

/-- Of two deadlines the last one counts, and a process number that takes
    more than 32 bits is none. -/
theorem parse_numbers_overwritten :
    let contents := "[Ask]\nSocket=s\nNotAfter=9\nNotAfter=+007\nPID=4294967296"
    parse "ask.1" contents "boot"
        = .ok ⟨"ask.1", "", .ofString "s", some 7, none, false⟩ ∧
      ∃ lines inside fields, Text.HasLines contents.toList lines ∧ HasSection lines inside ∧
        Says inside fields ∧ Deadline fields 7 ∧ ¬ ∃ n, ProcessNumber fields n := by
  have hparse : parse "ask.1" "[Ask]\nSocket=s\nNotAfter=9\nNotAfter=+007\nPID=4294967296" "boot"
      = .ok ⟨"ask.1", "", .ofString "s", some 7, none, false⟩ := by decide +kernel
  obtain ⟨lines, inside, fields, hlines, hinside, hsays, hdeadline, hpid, -⟩ := parse_numbers hparse
  refine ⟨hparse, lines, inside, fields, hlines, hinside, hsays, (hdeadline 7).mp rfl, ?_⟩
  rintro ⟨n, hn⟩
  cases (hpid n).mpr hn

end Request

end DiskKeys
