import DiskKeys.Proofs.Archive.RoundTrip
import DiskKeys.Proofs.Archive.Unread

/-! # Packing again what was unpacked

    The names that decoding hands out are made of bytes, and the hidden one
    is not among them (`toNat_le_of_mem_nameAt`, `expose_ne_hiddenName`): so
    nothing about them changes when they are encoded and decoded once more.
    One thing can keep them from being encoded.  A unit that is not zero but
    ends in a zero byte is narrowed to a NUL, which encoding refuses
    (`nul_mem_nameAt`).  Where there is none, and the files fit, encoding
    and decoding give them back as they are (`repack`). -/

namespace DiskKeys.Archive

variable {a : Bytes} {files : List ProvisionFile}

/-! ## Names that were handed out -/

/-- The units of the stored name of the `i`-th entry. -/
def storedName (a : Bytes) (i : Nat) : List Nat :=
  let p := entryStart a i
  unitsAt a (p + nameOffsetAt a p) (nameSizeAt a p)

/-- A name is spelled from its units, and then exposed. -/
theorem nameAt_eq_expose (a : Bytes) (start size : Nat) :
    nameAt a start size = expose (.ofList
      (((unitsAt a start size).takeWhile (· ≠ 0)).map fun unit => .ofNat (unit % 256))) := rfl

theorem expose_ne_hiddenName (name : String) : expose name ≠ hiddenName := by
  unfold expose
  by_cases hhidden : name = hiddenName
  · rw [if_pos hhidden]
    decide +kernel
  · rw [if_neg hhidden]
    exact hhidden

theorem toNat_le_of_mem_expose {name : String} (h : ∀ c ∈ name.toList, c.toNat ≤ 0xff) :
    ∀ c ∈ (expose name).toList, c.toNat ≤ 0xff := by
  unfold expose
  by_cases hhidden : name = hiddenName
  · rw [if_pos hhidden]
    exact toNat_le_of_mem_exposedAs
  · rw [if_neg hhidden]
    exact h

/-- There is no NUL in the hidden name, nor in the one that stands for
    it. -/
theorem nul_mem_expose {name : String} : '\x00' ∈ (expose name).toList ↔ '\x00' ∈ name.toList := by
  unfold expose
  by_cases hhidden : name = hiddenName
  · rw [if_pos hhidden, hhidden]
    decide +kernel
  · rw [if_neg hhidden]

/-- A character of a name that was handed out is a byte. -/
theorem toNat_le_of_mem_nameAt {start size : Nat} :
    ∀ c ∈ (nameAt a start size).toList, c.toNat ≤ 0xff := by
  rw [nameAt_eq_expose]
  refine toNat_le_of_mem_expose ?_
  intro c hc
  rw [String.toList_ofList] at hc
  obtain ⟨unit, -, rfl⟩ := List.mem_map.mp hc
  rw [toNat_ofNat_mod]
  exact Nat.le_of_lt_succ (Nat.mod_lt unit (by decide))

/-- A NUL in a name that was handed out comes from a stored unit that ends
    in a zero byte. -/
theorem nul_mem_nameAt {start size : Nat} :
    '\x00' ∈ (nameAt a start size).toList ↔
      ∃ unit ∈ (unitsAt a start size).takeWhile (· ≠ 0), unit % 256 = 0 := by
  have hnarrow : ∀ unit : Nat, Char.ofNat (unit % 256) = '\x00' ↔ unit % 256 = 0 := by
    intro unit
    rw [← Char.toNat_inj, toNat_ofNat_mod]
    rfl
  rw [nameAt_eq_expose, nul_mem_expose, String.toList_ofList]
  simp only [List.mem_map, hnarrow]

/-! ## Encoding them -/

/-- Encoding complains of a NUL exactly when there is one. -/
theorem encode_eq_nulInName :
    (∃ name, encode files = .error (.nulInName name)) ↔ ∃ f ∈ files, '\x00' ∈ f.name.toList := by
  rw [encode_eq]
  cases hfind : (files.map (·.name)).find? (·.toList.contains '\x00') with
  | some name =>
      obtain ⟨f, hf, rfl⟩ := List.mem_map.mp (List.mem_of_find?_eq_some hfind)
      have hnul : '\x00' ∈ f.name.toList := by simpa using List.find?_some hfind
      exact ⟨fun _ => ⟨f, hf, hnul⟩, fun _ => ⟨f.name, rfl⟩⟩
  | none =>
      constructor
      · rintro ⟨name, h⟩
        -- all that is left is that something does not fit
        split_ifs at h <;> cases h
      · rintro ⟨f, hf, hnul⟩
        have hnone := List.find?_eq_none.mp hfind f.name (List.mem_map_of_mem hf)
        exact absurd hnul (by simpa using hnone)

/-- A text of bytes has a unit for each character. -/
theorem length_units {text : List Char} (h : ∀ c ∈ text, c.toNat ≤ 0xff) :
    (Text.Utf16.units text).length = text.length := by
  have hlength := congrArg List.length (map_narrow_units h)
  rwa [List.length_map] at hlength

theorem canonicalSize_eq (h : ∀ f ∈ files, ∀ c ∈ f.name.toList, c.toNat ≤ 0xff) :
    canonicalSize files
      = 8 + (files.map fun f => 20 + 2 * f.name.toList.length + f.payload.length).sum := by
  rw [canonicalSize, List.map_congr_left]
  intro f hf
  rw [length_units (h f hf)]

/-- **What was unpacked can be packed again.**  Of the files in an accepted
    archive none has the hidden name, and all characters of their names are
    below U+0100.  Encoding them complains of a NUL exactly when a stored
    name has, before its first zero unit, one that is a multiple of 256.  If
    it does not, and the files fit in thirty-two bits, it succeeds, and
    decoding gives these very files. -/
theorem repack (h : decode a = .ok files) :
    (∀ f ∈ files, f.name ≠ "unattend.xml" ∧ ∀ c ∈ f.name.toList, c.toNat ≤ 0xff) ∧
    ((∃ name, encode files = .error (.nulInName name)) ↔
      ∃ i < files.length, ∃ unit ∈ (storedName a i).takeWhile (· ≠ 0), unit % 256 = 0) ∧
    ((¬ ∃ name, encode files = .error (.nulInName name)) →
      8 + (files.map fun f => 20 + 2 * f.name.toList.length + f.payload.length).sum ≤ 2 ^ 32 - 1 →
      ∃ archive, encode files = .ok archive ∧ decode archive = .ok files) := by
  have hfile : ∀ i (hi : i < files.length), files[i] = fileAt a (entryStart a i) :=
    fun i hi => (fileAt_of_decode h hi).2
  have hnames : ∀ f ∈ files, f.name ≠ hiddenName ∧ ∀ c ∈ f.name.toList, c.toNat ≤ 0xff := by
    intro f hf
    obtain ⟨i, hi, rfl⟩ := List.getElem_of_mem hf
    rw [hfile i hi]
    exact ⟨expose_ne_hiddenName _, toNat_le_of_mem_nameAt⟩
  refine ⟨hnames, ?_, ?_⟩
  · rw [encode_eq_nulInName]
    constructor
    · rintro ⟨f, hf, hnul⟩
      obtain ⟨i, hi, rfl⟩ := List.getElem_of_mem hf
      rw [hfile i hi] at hnul
      exact ⟨i, hi, nul_mem_nameAt.mp hnul⟩
    · rintro ⟨i, hi, hunit⟩
      refine ⟨files[i], List.getElem_mem hi, ?_⟩
      rw [hfile i hi]
      exact nul_mem_nameAt.mpr hunit
  · intro hnoNul hsize
    have hnul : ∀ f ∈ files, '\x00' ∉ f.name.toList :=
      fun f hf hmem => hnoNul (encode_eq_nulInName.mpr ⟨f, hf, hmem⟩)
    have hfits : totalSize files < UInt32.size := by
      rw [totalSize_eq_canonicalSize, canonicalSize_eq fun f hf => (hnames f hf).2]
      exact Nat.lt_of_le_of_lt hsize (by decide)
    refine ⟨archiveBytes files, encode_eq_ok hnul hfits, ?_⟩
    rw [decode_archiveBytes hnul hfits, Except.ok.injEq, map_returned_eq_iff]
    exact fun f hf => ⟨(hnames f hf).2, (hnames f hf).1⟩

/-- An archive of one empty file; its name has the units U+0041 and
    U+0100. -/
def nulNamed : Bytes :=
  [32, 0, 0, 0, 1, 0, 0, 0, 0, 0, 0, 0, 4, 0, 0, 0, 20, 0, 0, 0, 0, 0, 0, 0, 24, 0, 0, 0,
    0x41, 0, 0, 1]

/-- A name that lay on the header of its entry gets a place of its own; the
    other one cannot be stored again. -/
theorem repack_selfNamed :
    (decode (selfNamed 0x42 0x42) = .ok [⟨"BB", []⟩] ∧
      ∃ archive, encode [⟨"BB", []⟩] = .ok archive ∧ archive ≠ selfNamed 0x42 0x42 ∧
        decode archive = .ok [⟨"BB", []⟩]) ∧
    decode nulNamed = .ok [⟨"A\x00", []⟩] ∧
    ∃ name, encode [⟨"A\x00", []⟩] = .error (.nulInName name) := by
  have hgood : decode (selfNamed 0x42 0x42) = .ok [⟨"BB", []⟩] := by decide +kernel
  have hbad : decode nulNamed = .ok [⟨"A\x00", []⟩] := by decide +kernel
  obtain ⟨-, hnul, hagain⟩ := repack hgood
  have hnoNul : ¬ ∃ name, encode [⟨"BB", []⟩] = .error (.nulInName name) := by
    rw [hnul]
    decide +kernel
  obtain ⟨archive, hencode, hdecode⟩ := hagain hnoNul (by decide +kernel)
  refine ⟨⟨hgood, archive, hencode, ?_, hdecode⟩, hbad,
    (repack hbad).2.1.mpr ⟨0, by decide, 0x100, by decide +kernel, rfl⟩⟩
  rintro rfl
  exact absurd hencode (by decide +kernel)

end DiskKeys.Archive
