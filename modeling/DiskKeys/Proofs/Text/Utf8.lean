import Mathlib.Data.List.Basic
import Mathlib.Tactic.SplitIfs
import DiskKeys.Text.Utf8

/-! # Single bytes in UTF-8

    A character below U+0080 is one byte of its own value, and any other is
    made of bytes from 0x80 on.  So a byte below 0x80 tells of exactly one
    character (`mem_encode_iff`), and a name can be searched for separators
    as a text or as bytes, whichever is at hand. -/

namespace DiskKeys.Text.Utf8

theorem toList_loop (b : ByteArray) (i : Nat) (r : List UInt8) :
    ByteArray.toList.loop b i r = r.reverse ++ b.data.toList.drop i := by
  fun_induction ByteArray.toList.loop b i r with
  | case1 i r hi ih =>
      have hdrop : b.data.toList.drop i = b.get! i :: b.data.toList.drop (i + 1) := by
        rw [List.drop_eq_getElem_cons (by simpa using hi)]
        simp [ByteArray.get!, hi]
      rw [ih, hdrop, List.reverse_cons, List.append_assoc, List.singleton_append]
  | case2 i r hi =>
      have hdrop : b.data.toList.drop i = [] :=
        List.drop_eq_nil_of_le (by simpa using Nat.le_of_not_lt hi)
      rw [hdrop, List.append_nil]

theorem toList_eq (b : ByteArray) : b.toList = b.data.toList :=
  toList_loop b 0 []

/-- The bytes of a text are those of its characters, one after the other. -/
theorem encode_eq_flatMap (text : String) :
    encode text = text.toList.flatMap String.utf8EncodeChar := by
  rw [encode, toList_eq, ← String.utf8Encode_toList]
  simp [List.utf8Encode]

theorem encode_inj {text text' : String} : encode text = encode text' ↔ text = text' := by
  rw [encode, encode, toList_eq, toList_eq, Array.toList_inj, ← ByteArray.ext_iff,
    String.toByteArray_inj]

/-- Bytes that are text are the bytes of that text. -/
theorem encode_of_decode? {bytes : Bytes} {text : String} (h : decode? bytes = some text) :
    encode text = bytes := by
  unfold decode? String.fromUTF8? at h
  split at h
  · rw [← Option.some.inj h, encode, toList_eq]
    simp [String.fromUTF8]
  · exact nomatch h

/-- A byte below 0x80 is the only one of its character. -/
theorem mem_utf8EncodeChar_iff {b : UInt8} (hb : b.toNat < 0x80) (c : Char) :
    b ∈ String.utf8EncodeChar c ↔ c.toNat = b.toNat := by
  have hc : c.val.toNat = c.toNat := rfl
  unfold String.utf8EncodeChar
  simp only [hc]
  -- one case for each number of bytes
  split_ifs
  · simp only [List.mem_singleton, ← UInt8.toNat_inj, UInt8.toNat_ofNat']
    omega
  · simp only [List.mem_cons, List.not_mem_nil, or_false, ← UInt8.toNat_inj, UInt8.toNat_ofNat']
    omega
  · simp only [List.mem_cons, List.not_mem_nil, or_false, ← UInt8.toNat_inj, UInt8.toNat_ofNat']
    omega
  · simp only [List.mem_cons, List.not_mem_nil, or_false, ← UInt8.toNat_inj, UInt8.toNat_ofNat']
    omega

/-- A text holds a character below U+0080 exactly when its bytes hold the
    byte of the same value. -/
theorem mem_encode_iff {c : Char} (hc : c.toNat < 0x80) (text : String) :
    .ofNat c.toNat ∈ encode text ↔ c ∈ text.toList := by
  have hbyte : (UInt8.ofNat c.toNat).toNat = c.toNat := UInt8.toNat_ofNat_of_lt' (by
    show c.toNat < 256
    omega)
  rw [encode_eq_flatMap, List.mem_flatMap]
  constructor
  · rintro ⟨d, hd, hmem⟩
    rw [mem_utf8EncodeChar_iff (by omega), hbyte] at hmem
    rwa [← Char.toNat_inj.mp hmem]
  · intro hmem
    exact ⟨c, hmem, (mem_utf8EncodeChar_iff (by omega) c).mpr hbyte.symm⟩

end DiskKeys.Text.Utf8
