import DiskKeys.Archive
import DiskKeys.Proofs.Bytes.LittleEndian
import Mathlib.Data.List.TakeWhile

/-! # Names in archives

    A name is stored unit by unit and read back unit by unit; what changes
    it is that every unit is then narrowed to a character below U+0100, and
    that one name is handed out under another.  So a name comes back as it
    was exactly when its characters are all below U+0100 and it is not the
    hidden one (`expose_narrowed_eq_iff`). -/

namespace DiskKeys.Archive

/-- A name as it comes back from its units: each is narrowed to its low
    byte. -/
def narrowed (name : String) : String :=
  .ofList ((Text.Utf16.units name.toList).map narrow)

/-! ## Units -/

/-- Units are read back from their bytes. -/
theorem unitsOf_unitBytes (units : List UInt16) : unitsOf (unitBytes units) = units := by
  induction units with
  | nil => rfl
  | cons unit rest ih =>
      have hread : littleEndian (toLittleEndian 2 unit.toNat) = unit.toNat :=
        littleEndian_toLittleEndian unit.toNat_lt
      show .ofNat (littleEndian (toLittleEndian 2 unit.toNat)) :: unitsOf (unitBytes rest) = _
      rw [hread, ih, UInt16.ofNat_toNat]

/-- A unit takes two bytes. -/
theorem length_unitBytes (units : List UInt16) :
    (unitBytes units).length = 2 * units.length := by
  induction units with
  | nil => rfl
  | cons unit rest ih =>
      show (unitBytes rest).length + 2 = _
      rw [ih, List.length_cons]
      omega

/-- Only NUL has a zero unit. -/
theorem ne_zero_of_mem_charUnits {c : Char} (hc : c ≠ '\x00') {unit : UInt16}
    (hmem : unit ∈ Text.Utf16.charUnits c) : unit ≠ 0 := by
  have hpos : c.toNat ≠ 0 := by
    intro hzero
    exact hc (Char.toNat_inj.mp hzero)
  have hne : ∀ n, n < 65536 → n ≠ 0 → UInt16.ofNat n ≠ 0 := by
    intro n hlt hn hzero
    have hval := congrArg UInt16.toNat hzero
    rw [UInt16.toNat_ofNat_of_lt' hlt] at hval
    exact hn hval
  unfold Text.Utf16.charUnits at hmem
  by_cases hplane : c.toNat < 0x10000
  · rw [if_pos hplane] at hmem
    rw [List.mem_singleton.mp hmem]
    exact hne c.toNat hplane hpos
  · -- both surrogates of a character beyond the first plane are far from zero
    have hmax : c.toNat < 0x110000 := by
      have hvalid := c.valid
      have htop : c.toNat = c.val.toNat := rfl
      rcases hvalid with hlow | ⟨-, hhigh⟩
      · omega
      · omega
    rw [if_neg hplane] at hmem
    rcases List.mem_cons.mp hmem with rfl | hmem
    · exact hne _ (by omega) (by omega)
    · rw [List.mem_singleton.mp hmem]
      exact hne _ (by omega) (by omega)

theorem ne_zero_of_mem_units {text : List Char} (htext : '\x00' ∉ text) {unit : UInt16}
    (hmem : unit ∈ Text.Utf16.units text) : unit ≠ 0 := by
  obtain ⟨c, hc, hunit⟩ := List.mem_flatMap.mp hmem
  have hne : c ≠ '\x00' := by
    rintro rfl
    exact htext hc
  exact ne_zero_of_mem_charUnits hne hunit

/-- A stored name without NUL is spelled to its end. -/
theorem spell_units {name : String} (h : '\x00' ∉ name.toList) :
    spell (Text.Utf16.units name.toList) = narrowed name := by
  have hall : (Text.Utf16.units name.toList).takeWhile (· ≠ 0)
      = Text.Utf16.units name.toList := by
    rw [List.takeWhile_eq_self_iff]
    intro unit hunit
    exact decide_eq_true (ne_zero_of_mem_units h hunit)
  rw [spell, narrowed, hall]

/-! ## Narrowing -/

/-- Every byte is the number of a character. -/
theorem toNat_ofNat_mod (n : Nat) : (Char.ofNat (n % 256)).toNat = n % 256 := by
  have hlt : n % 256 < 256 := Nat.mod_lt _ (by decide)
  have hvalid : (n % 256).isValidChar := Or.inl (by omega)
  rw [Char.ofNat, dif_pos hvalid]
  rfl

theorem toNat_narrow (unit : UInt16) : (narrow unit).toNat = unit.toNat % 256 :=
  toNat_ofNat_mod unit.toNat

/-- A character below U+0100 is one unit, and narrowing gives it back. -/
theorem map_narrow_charUnits {c : Char} (h : c.toNat ≤ 0xff) :
    (Text.Utf16.charUnits c).map narrow = [c] := by
  have hplane : c.toNat < 0x10000 := by omega
  have hnarrow : narrow (.ofNat c.toNat) = c := by
    apply Char.toNat_inj.mp
    rw [toNat_narrow, UInt16.toNat_ofNat_of_lt' hplane]
    omega
  rw [Text.Utf16.charUnits, if_pos hplane, List.map_singleton, hnarrow]

theorem map_narrow_units {text : List Char} (h : ∀ c ∈ text, c.toNat ≤ 0xff) :
    (Text.Utf16.units text).map narrow = text := by
  induction text with
  | nil => rfl
  | cons c rest ih =>
      have hc := map_narrow_charUnits (h c List.mem_cons_self)
      have hrest := ih fun c' hc' => h c' (List.mem_cons_of_mem c hc')
      rw [Text.Utf16.units, List.flatMap_cons, List.map_append, hc]
      show c :: (Text.Utf16.units rest).map narrow = _
      rw [hrest]

/-- Every character of a narrowed name is below U+0100. -/
theorem toNat_le_of_mem_narrowed {name : String} {c : Char} (h : c ∈ (narrowed name).toList) :
    c.toNat ≤ 0xff := by
  rw [narrowed, String.toList_ofList] at h
  obtain ⟨unit, -, rfl⟩ := List.mem_map.mp h
  rw [toNat_narrow]
  have := Nat.mod_lt unit.toNat (show 0 < 256 by decide)
  omega

/-- Narrowing changes a name exactly when it has a character from U+0100
    on. -/
theorem narrowed_eq_iff {name : String} :
    narrowed name = name ↔ ∀ c ∈ name.toList, c.toNat ≤ 0xff := by
  constructor
  · intro h c hc
    rw [← h] at hc
    exact toNat_le_of_mem_narrowed hc
  · intro h
    rw [narrowed, map_narrow_units h, String.ofList_toList]

/-- The name under which the hidden one is handed out has only characters
    below U+0100. -/
theorem toNat_le_of_mem_exposedAs : ∀ c ∈ exposedAs.toList, c.toNat ≤ 0xff := by
  simp [exposedAs]

/-- A name comes back as it was exactly when its characters are all below
    U+0100 and it is not the hidden one. -/
theorem expose_narrowed_eq_iff {name : String} :
    expose (narrowed name) = name ↔
      (∀ c ∈ name.toList, c.toNat ≤ 0xff) ∧ name ≠ hiddenName := by
  unfold expose
  constructor
  · intro h
    by_cases hhidden : narrowed name = hiddenName
    · rw [if_pos hhidden] at h
      subst h
      exact ⟨toNat_le_of_mem_exposedAs, by decide +kernel⟩
    · rw [if_neg hhidden] at h
      exact ⟨narrowed_eq_iff.mp h, fun hname => hhidden (h.trans hname)⟩
  · rintro ⟨hlow, hname⟩
    have hsame := narrowed_eq_iff.mpr hlow
    rw [hsame, if_neg hname]

end DiskKeys.Archive
