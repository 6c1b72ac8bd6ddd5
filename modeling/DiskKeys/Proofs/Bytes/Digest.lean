import DiskKeys.Bytes.Digest
import DiskKeys.Bytes.Hex
import DiskKeys.Proofs.Bytes.LittleEndian

/-! # The text of a digest

    A digest has thirty-two bytes, whatever it is taken of, and a byte is
    written as two digits.  So the text of a digest is always sixty-four
    lower-case digits (`length_encodeChars_sha256`, `digit_of_mem_encodeChars`),
    and no other digest has it (`encodeChars_inj`). -/

namespace DiskKeys

/-! ## Hexadecimal digits -/

namespace Hex

/-- The sixteen digits. -/
def digits : List Char :=
  ['0', '1', '2', '3', '4', '5', '6', '7', '8', '9', 'a', 'b', 'c', 'd', 'e', 'f']

theorem digit_mem_digits : ∀ n < 16, digit n ∈ digits := by decide

theorem digit_inj : ∀ n < 16, ∀ m < 16, digit n = digit m → n = m := by decide

/-- Both halves of a byte have digits. -/
theorem halves_lt (b : UInt8) : b.toNat / 16 < 16 ∧ b.toNat % 16 < 16 := by
  have hb := b.toNat_lt
  omega

theorem encodeChars_cons (b : UInt8) (bytes : Bytes) :
    encodeChars (b :: bytes) = digit (b.toNat / 16) :: digit (b.toNat % 16) :: encodeChars bytes :=
  rfl

theorem length_encodeChars (bytes : Bytes) : (encodeChars bytes).length = 2 * bytes.length := by
  induction bytes with
  | nil => rfl
  | cons b bytes ih =>
      rw [encodeChars_cons, List.length_cons, List.length_cons, List.length_cons, ih]
      omega

/-- Hexadecimal text has no character but digits. -/
theorem digit_of_mem_encodeChars {bytes : Bytes} {c : Char} (h : c ∈ encodeChars bytes) :
    c ∈ digits := by
  obtain ⟨b, -, hc⟩ := List.mem_flatMap.mp h
  obtain ⟨hhigh, hlow⟩ := halves_lt b
  rcases List.mem_cons.mp hc with rfl | hc
  · exact digit_mem_digits _ hhigh
  · rw [List.mem_singleton.mp hc]
    exact digit_mem_digits _ hlow

theorem encodeChars_inj {bytes bytes' : Bytes} :
    encodeChars bytes = encodeChars bytes' ↔ bytes = bytes' := by
  refine ⟨?_, congrArg encodeChars⟩
  intro h
  induction bytes generalizing bytes' with
  | nil =>
      have hlength := congrArg List.length h
      rw [length_encodeChars, length_encodeChars, List.length_nil] at hlength
      exact (List.eq_nil_of_length_eq_zero (by omega)).symm
  | cons b bytes ih =>
      cases bytes' with
      | nil => cases h
      | cons b' bytes' =>
          obtain ⟨hhigh, hlow, hrest⟩ : digit (b.toNat / 16) = digit (b'.toNat / 16) ∧
              digit (b.toNat % 16) = digit (b'.toNat % 16) ∧
              encodeChars bytes = encodeChars bytes' := by
            simpa [encodeChars_cons] using h
          have hdiv := digit_inj _ (halves_lt b).1 _ (halves_lt b').1 hhigh
          have hmod := digit_inj _ (halves_lt b).2 _ (halves_lt b').2 hlow
          have hbyte : b.toNat = b'.toNat := by omega
          rw [UInt8.toNat_inj.mp hbyte, ih hrest]

end Hex

/-! ## Digests -/

namespace Digest

theorem length_toBytes (s : State) : s.toBytes.length = 32 := by
  simp [State.toBytes]

theorem length_encodeChars_sha256 (bytes : Bytes) :
    (Hex.encodeChars (sha256 bytes)).length = 64 := by
  rw [Hex.length_encodeChars, sha256, length_toBytes]

end Digest

end DiskKeys
