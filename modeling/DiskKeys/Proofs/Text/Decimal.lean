import Mathlib.Data.List.Induction
import Mathlib.Data.Nat.Digits.Defs
import DiskKeys.Text.Decimal

/-! # The numbers that decimal digits spell

    What a text of digits stands for is said here by the place values and
    not by how it is read: it spells the number of which the digits, last
    one first, are the digits to base ten.  Reading is exact: it yields the
    number that the text spells, if that is not too large, and nothing
    otherwise, however many digits there are (`decimal?_eq_some_iff`). -/

namespace DiskKeys.Text

/-- The place values of decimal digits added up. -/
def digitsNumber (digits : List Char) : Nat :=
  Nat.ofDigits 10 (digits.reverse.map fun c => c.toNat - '0'.toNat)

/-- A text spells a number by one or more decimal digits, perhaps behind a
    plus sign. -/
inductive Spells : List Char → Nat → Prop
  | plain {digits : List Char} (some : digits ≠ []) (decimal : ∀ c ∈ digits, '0' ≤ c ∧ c ≤ '9') :
      Spells digits (digitsNumber digits)
  | plus {digits : List Char} (some : digits ≠ []) (decimal : ∀ c ∈ digits, '0' ≤ c ∧ c ≤ '9') :
      Spells ('+' :: digits) (digitsNumber digits)

theorem digitsNumber_concat (digits : List Char) (c : Char) :
    digitsNumber (digits ++ [c]) = 10 * digitsNumber digits + (c.toNat - '0'.toNat) := by
  rw [digitsNumber, List.reverse_concat, List.map_cons, Nat.ofDigits_cons, Nat.add_comm]
  rfl

theorem digit?_eq_some_iff {c : Char} {d : Nat} :
    digit? c = some d ↔ ('0' ≤ c ∧ c ≤ '9') ∧ c.toNat - '0'.toNat = d := by
  unfold digit?
  by_cases hc : '0' ≤ c ∧ c ≤ '9'
  · simp [hc]
  · simp [hc]

/-- Digit by digit, what has been read so far is the number so far. -/
theorem foldl_digit?_eq_some_iff {text : List Char} {n : Nat} :
    text.foldl (fun acc c => do return 10 * (← acc) + (← digit? c)) (some 0) = some n ↔
      (∀ c ∈ text, '0' ≤ c ∧ c ≤ '9') ∧ digitsNumber text = n := by
  induction text using List.reverseRecOn generalizing n with
  | nil => simp [digitsNumber]
  | append_singleton text c ih =>
      rw [List.foldl_append, List.foldl_cons, List.foldl_nil]
      constructor
      · intro h
        obtain ⟨m, hm, h⟩ := Option.bind_eq_some_iff.mp h
        obtain ⟨d, hd, h⟩ := Option.bind_eq_some_iff.mp h
        obtain ⟨hdigits, rfl⟩ := ih.mp hm
        obtain ⟨hc, rfl⟩ := digit?_eq_some_iff.mp hd
        refine ⟨?_, ?_⟩
        · intro e he
          rcases List.mem_append.mp he with he | he
          · exact hdigits e he
          · rwa [List.mem_singleton.mp he]
        · rw [digitsNumber_concat]
          exact Option.some.inj h
      · rintro ⟨hdigits, rfl⟩
        have hm := ih.mpr ⟨fun e he => hdigits e (List.mem_append_left _ he), rfl⟩
        have hd := digit?_eq_some_iff.mpr ⟨hdigits c (by simp), rfl⟩
        rw [hm, hd, digitsNumber_concat]
        rfl

theorem digitsValue?_eq_some_iff {text : List Char} {n : Nat} :
    digitsValue? digit? 10 text = some n ↔
      text ≠ [] ∧ (∀ c ∈ text, '0' ≤ c ∧ c ≤ '9') ∧ digitsNumber text = n := by
  rw [digitsValue?]
  cases text with
  | nil => simp
  | cons c rest =>
      rw [if_neg (by simp), foldl_digit?_eq_some_iff]
      simp

theorem dropPlus_of_ne {text : List Char} (h : text.head? ≠ some '+') : dropPlus text = text := by
  unfold dropPlus
  split
  · exact absurd rfl h
  · rfl

theorem spells_iff {text : List Char} {n : Nat} :
    Spells text n ↔ digitsValue? digit? 10 (dropPlus text) = some n := by
  rw [digitsValue?_eq_some_iff]
  constructor
  · rintro (⟨hsome, hdecimal⟩ | ⟨hsome, hdecimal⟩)
    · have hplus : text.head? ≠ some '+' := by
        intro hhead
        exact absurd (hdecimal '+' (List.mem_of_head? hhead)).1 (by decide)
      rw [dropPlus_of_ne hplus]
      exact ⟨hsome, hdecimal, rfl⟩
    · exact ⟨hsome, hdecimal, rfl⟩
  · rintro ⟨hsome, hdecimal, rfl⟩
    by_cases hplus : text.head? = some '+'
    · obtain ⟨digits, rfl⟩ := List.head?_eq_some_iff.mp hplus
      exact .plus hsome hdecimal
    · rw [dropPlus_of_ne hplus] at hsome hdecimal ⊢
      exact .plain hsome hdecimal

/-- A text spells one number at most. -/
theorem Spells.unique {text : List Char} {m n : Nat} (hm : Spells text m) (hn : Spells text n) :
    m = n :=
  Option.some.inj ((spells_iff.mp hm).symm.trans (spells_iff.mp hn))

/-- What is read is the number that the text spells, unless that exceeds
    the bound. -/
theorem decimal?_eq_some_iff {bound : Nat} {text : List Char} {n : Nat} :
    decimal? bound text = some n ↔ Spells text n ∧ n ≤ bound := by
  rw [decimal?, Option.filter_eq_some_iff, ← spells_iff, decide_eq_true_eq]

/-! ## The digits of a number -/

theorem toDigits_inj {m n : Nat} : Nat.toDigits 10 m = Nat.toDigits 10 n ↔ m = n := by
  refine ⟨?_, congrArg (Nat.toDigits 10)⟩
  intro h
  calc m = Nat.ofDigitChars 10 (Nat.toDigits 10 m) 0 := Nat.ofDigitChars_ten_toDigits.symm
    _ = Nat.ofDigitChars 10 (Nat.toDigits 10 n) 0 := by rw [h]
    _ = n := Nat.ofDigitChars_ten_toDigits

theorem not_mem_toDigits {c : Char} (hc : c.isDigit = false) (n : Nat) : c ∉ Nat.toDigits 10 n := by
  intro hmem
  have hdigit := Nat.isDigit_of_mem_toDigits (by decide) (Nat.le_refl 10) hmem
  exact Bool.false_ne_true (hc.symm.trans hdigit)

end DiskKeys.Text
