import Mathlib.Algebra.Ring.Nat
import DiskKeys.Bytes.Builder

/-! # Little-endian numbers

    A number that fits in a width is read back from its bytes in that
    width, and the bytes of a width make up no number beyond it; so bytes
    and the numbers that fit in them stand for each other. -/

namespace DiskKeys

@[simp] theorem length_toLittleEndian (width n : Nat) :
    (toLittleEndian width n).length = width := by
  induction width generalizing n with
  | zero => rfl
  | succ width ih =>
      rw [toLittleEndian, List.length_cons, ih]

/-- Reading back what was written gives the number without what does not
    fit. -/
theorem littleEndian_toLittleEndian_mod (width n : Nat) :
    littleEndian (toLittleEndian width n) = n % 256 ^ width := by
  induction width generalizing n with
  | zero => exact (Nat.mod_one n).symm
  | succ width ih =>
      have hbyte : (UInt8.ofNat (n % 256)).toNat = n % 256 :=
        Nat.mod_eq_of_lt (Nat.mod_lt n (by decide))
      have hsplit : n % (256 * 256 ^ width) = n % 256 + 256 * (n / 256 % 256 ^ width) :=
        Nat.mod_mul
      rw [toLittleEndian, littleEndian, ih, hbyte, ← hsplit, Nat.pow_succ,
        Nat.mul_comm (256 ^ width)]

theorem littleEndian_toLittleEndian {width n : Nat} (h : n < 256 ^ width) :
    littleEndian (toLittleEndian width n) = n := by
  rw [littleEndian_toLittleEndian_mod, Nat.mod_eq_of_lt h]

/-- Bytes make up a number that fits in as many bytes. -/
theorem littleEndian_lt (bytes : Bytes) : littleEndian bytes < 256 ^ bytes.length := by
  induction bytes with
  | nil => exact Nat.one_pos
  | cons b rest ih =>
      have hb := b.toNat_lt
      rw [littleEndian, List.length_cons, Nat.pow_succ]
      omega

/-- Bytes are the written form of the number that they make up. -/
theorem toLittleEndian_littleEndian (bytes : Bytes) :
    toLittleEndian bytes.length (littleEndian bytes) = bytes := by
  induction bytes with
  | nil => rfl
  | cons b rest ih =>
      have hb := b.toNat_lt
      have hlow : (b.toNat + 256 * littleEndian rest) % 256 = b.toNat := by omega
      have hhigh : (b.toNat + 256 * littleEndian rest) / 256 = littleEndian rest := by omega
      rw [littleEndian, List.length_cons, toLittleEndian, hlow, hhigh, ih, UInt8.ofNat_toNat]

end DiskKeys
