import DiskKeys.Text.Utf16

/-! # The units of a text

    The first unit of a character tells whether there is a second one, for
    a character that is one unit is never a surrogate (`charUnits_cases`).
    So units can be taken apart again, character by character, and no two
    texts have the same units (`units_inj`). -/

namespace DiskKeys.Text.Utf16

/-- A character is one unit that is no surrogate, or two that are. -/
theorem charUnits_cases (c : Char) :
    (c.toNat < 0x10000 ∧ ¬ (0xd800 ≤ c.toNat ∧ c.toNat < 0xe000) ∧
      charUnits c = [.ofNat c.toNat]) ∨
    ∃ high low, high < 0x400 ∧ low < 0x400 ∧ c.toNat = 0x10000 + (0x400 * high + low) ∧
      charUnits c = [.ofNat (0xd800 + high), .ofNat (0xdc00 + low)] := by
  have hvalid : c.toNat < 0xd800 ∨ 0xdfff < c.toNat ∧ c.toNat < 0x110000 := c.valid
  by_cases hplane : c.toNat < 0x10000
  · exact Or.inl ⟨hplane, by omega, if_pos hplane⟩
  · refine Or.inr ⟨(c.toNat - 0x10000) / 0x400, (c.toNat - 0x10000) % 0x400, by omega,
      Nat.mod_lt _ (by decide), ?_, if_neg hplane⟩
    rw [Nat.div_add_mod]
    omega

/-- Units are told apart by their numbers. -/
theorem ofNat_unit_inj {m n : Nat} (hm : m < 0x10000) (hn : n < 0x10000)
    (h : UInt16.ofNat m = .ofNat n) : m = n := by
  have hnumber := congrArg UInt16.toNat h
  rwa [UInt16.toNat_ofNat_of_lt' hm, UInt16.toNat_ofNat_of_lt' hn] at hnumber

/-- Units that begin with those of a character tell which one it is, and
    what comes after it. -/
theorem charUnits_append_inj {c c' : Char} {rest rest' : List UInt16}
    (h : charUnits c ++ rest = charUnits c' ++ rest') : c = c' ∧ rest = rest' := by
  rcases charUnits_cases c with ⟨hc, hplain, hunits⟩ | ⟨high, low, hhigh, hlow, hc, hunits⟩
  · rcases charUnits_cases c' with ⟨hc', -, hunits'⟩ | ⟨high', low', hhigh', -, -, hunits'⟩
    · rw [hunits, hunits'] at h
      obtain ⟨hunit, hrest⟩ := List.cons.inj h
      exact ⟨Char.toNat_inj.mp (ofNat_unit_inj hc hc' hunit), hrest⟩
    · -- a unit of its own does not start a pair
      rw [hunits, hunits'] at h
      have hunit := ofNat_unit_inj hc (by omega) (List.cons.inj h).1
      omega
  · rcases charUnits_cases c' with ⟨hc', hplain', hunits'⟩ | ⟨high', low', hhigh', hlow', hc',
      hunits'⟩
    · rw [hunits, hunits'] at h
      have hunit := ofNat_unit_inj (by omega) hc' (List.cons.inj h).1
      omega
    · rw [hunits, hunits'] at h
      obtain ⟨hfirst, hlater⟩ := List.cons.inj h
      obtain ⟨hsecond, hrest⟩ := List.cons.inj hlater
      have hfirst := ofNat_unit_inj (by omega) (by omega) hfirst
      have hsecond := ofNat_unit_inj (by omega) (by omega) hsecond
      exact ⟨Char.toNat_inj.mp (by omega), hrest⟩

theorem charUnits_ne_nil (c : Char) : charUnits c ≠ [] := by
  rcases charUnits_cases c with ⟨-, -, hunits⟩ | ⟨high, low, -, -, -, hunits⟩
  · rw [hunits]
    exact List.cons_ne_nil _ _
  · rw [hunits]
    exact List.cons_ne_nil _ _

/-- No two texts have the same units. -/
theorem units_inj {text text' : List Char} (h : units text = units text') : text = text' := by
  induction text generalizing text' with
  | nil =>
      cases text' with
      | nil => rfl
      | cons c' rest' =>
          exact absurd (List.append_eq_nil_iff.mp h.symm).1 (charUnits_ne_nil c')
  | cons c rest ih =>
      cases text' with
      | nil => exact absurd (List.append_eq_nil_iff.mp h).1 (charUnits_ne_nil c)
      | cons c' rest' =>
          obtain ⟨hc, hrest⟩ := charUnits_append_inj h
          rw [hc, ih hrest]

end DiskKeys.Text.Utf16
