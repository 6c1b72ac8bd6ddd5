import DiskKeys.Proofs.Attempt
import DiskKeys.Proofs.Bytes.LittleEndian

/-! # Reading what was written

    A cursor is known by its position and the bytes ahead of it.  A read
    that finds the written form of what it asks for in front yields it and
    leaves what comes after, and what a read has yielded did stand in
    front.  On bytes of whatever origin a read yields
    the part of them that starts at its position, and fails exactly when
    that part goes past their end (`take_after`). -/

namespace DiskKeys

/-- The part of bytes from `start` on, `size` bytes long. -/
def part (bytes : Bytes) (start size : Nat) : Bytes :=
  (bytes.drop start).take size

/-- The little-endian number in the part of bytes from `start` on, `width`
    bytes long. -/
def numberAt (bytes : Bytes) (width start : Nat) : Nat :=
  littleEndian (part bytes start width)

theorem length_part {bytes : Bytes} {start size : Nat} (h : start + size ≤ bytes.length) :
    (part bytes start size).length = size := by
  rw [part, List.length_take, List.length_drop]
  omega

/-- A part of a part is a part of the whole. -/
theorem part_part (bytes : Bytes) {start size start' size' : Nat} (h : start' + size' ≤ size) :
    part (part bytes start size) start' size' = part bytes (start + start') size' := by
  rw [part, part, part, List.drop_take, List.drop_drop, List.take_take]
  congr 1
  omega

/-- A part that stands between others. -/
theorem part_append_append (front middle back : Bytes) :
    part (front ++ (middle ++ back)) front.length middle.length = middle := by
  rw [part, List.drop_left, List.take_left]

/-- A part is made of its bytes. -/
theorem getElem?_part (bytes : Bytes) (start size k : Nat) :
    (part bytes start size)[k]? = if k < size then bytes[start + k]? else none := by
  rw [part, List.getElem?_take, List.getElem?_drop]

/-- Where bytes agree, so do their parts. -/
theorem part_congr {bytes bytes' : Bytes} {start size : Nat}
    (h : ∀ k, start ≤ k → k < start + size → bytes'[k]? = bytes[k]?) :
    part bytes' start size = part bytes start size := by
  apply List.ext_getElem?
  intro k
  rw [getElem?_part, getElem?_part]
  by_cases hk : k < size
  · rw [if_pos hk, if_pos hk]
    exact h _ (Nat.le_add_right start k) (by omega)
  · rw [if_neg hk, if_neg hk]

/-- Where bytes agree, so do the numbers in them. -/
theorem numberAt_congr {bytes bytes' : Bytes} {width start : Nat}
    (h : ∀ k, start ≤ k → k < start + width → bytes'[k]? = bytes[k]?) :
    numberAt bytes' width start = numberAt bytes width start := by
  rw [numberAt, numberAt, part_congr h]

/-- Bytes that begin alike have the same numbers there. -/
theorem numberAt_common {bytes bytes' : Bytes} {common : Nat}
    (h : ∀ k, k < common → bytes'[k]? = bytes[k]?) {width start : Nat}
    (hnumber : start + width ≤ common) :
    numberAt bytes' width start = numberAt bytes width start :=
  numberAt_congr fun k _ hto => h k (Nat.lt_of_lt_of_le hto hnumber)

theorem numberAt_lt (bytes : Bytes) (width start : Nat) :
    numberAt bytes width start < 256 ^ width := by
  have hlength : (part bytes start width).length ≤ width := by
    rw [part]
    exact List.length_take_le width _
  exact Nat.lt_of_lt_of_le (littleEndian_lt _) (Nat.pow_le_pow_right (by decide) hlength)

namespace Cursor

/-- A cursor at a position with these bytes ahead. -/
def ahead (position : Nat) (bytes : Bytes) : Cursor :=
  { ofBytes bytes with position }

theorem ofBytes_eq_ahead (bytes : Bytes) : ofBytes bytes = ahead 0 bytes := rfl

@[simp] theorem rest_ahead (position : Nat) (bytes : Bytes) :
    (ahead position bytes).rest = bytes := rfl

@[simp] theorem remaining_ahead (position : Nat) (bytes : Bytes) :
    (ahead position bytes).remaining = bytes.length := rfl

/-- What taking bytes comes to. -/
theorem take_ahead (position : Nat) (bytes : Bytes) (n : Nat) :
    (ahead position bytes).take n
      = if n ≤ bytes.length then .ok (bytes.take n, ahead (position + n) (bytes.drop n))
        else .error (.underflow position n bytes.length) := by
  by_cases h : n ≤ bytes.length
  · rw [if_pos h, take, if_pos (show n ≤ (ahead position bytes).remaining from h)]
    simp only [ahead, ofBytes, List.length_drop]
  · rw [if_neg h, take, if_neg (show ¬ n ≤ (ahead position bytes).remaining from h)]
    rfl

/-- Bytes in front are taken. -/
theorem take_append {n : Nat} (position : Nat) (bytes rest : Bytes) (h : bytes.length = n) :
    (ahead position (bytes ++ rest)).take n = .ok (bytes, ahead (position + n) rest) := by
  rw [take_ahead, if_pos (by simp [← h]), ← h, List.take_left, List.drop_left]

/-- Bytes in front are passed over. -/
theorem skip_append {n : Nat} (position : Nat) (bytes rest : Bytes) (h : bytes.length = n) :
    (ahead position (bytes ++ rest)).skip n = .ok (ahead (position + n) rest) := by
  rw [skip, take_append position bytes rest h]
  rfl

/-- A written number of four bytes is read back. -/
theorem readU32_append (position : Nat) (n : UInt32) (rest : Bytes) :
    (ahead position (toLittleEndian 4 n.toNat ++ rest)).readU32
      = .ok (n, ahead (position + 4) rest) := by
  have hread : littleEndian (toLittleEndian 4 n.toNat) = n.toNat :=
    littleEndian_toLittleEndian n.toNat_lt
  rw [readU32, take_append position _ rest (length_toLittleEndian 4 n.toNat)]
  simp [Except.map, hread]

/-- A written number of two bytes is read back. -/
theorem readU16_append (position : Nat) (n : UInt16) (rest : Bytes) :
    (ahead position (toLittleEndian 2 n.toNat ++ rest)).readU16
      = .ok (n, ahead (position + 2) rest) := by
  have hread : littleEndian (toLittleEndian 2 n.toNat) = n.toNat :=
    littleEndian_toLittleEndian n.toNat_lt
  rw [readU16, take_append position _ rest (length_toLittleEndian 2 n.toNat)]
  simp [Except.map, hread]

/-- What was taken stood in front. -/
theorem take_ahead_eq_ok {position n : Nat} {bytes taken : Bytes} {c : Cursor}
    (h : (ahead position bytes).take n = .ok (taken, c)) :
    taken.length = n ∧ ∃ rest, bytes = taken ++ rest ∧ c = ahead (position + n) rest := by
  rw [take_ahead] at h
  by_cases hn : n ≤ bytes.length
  · rw [if_pos hn] at h
    cases h
    exact ⟨List.length_take_of_le hn, bytes.drop n, (List.take_append_drop n bytes).symm, rfl⟩
  · rw [if_neg hn] at h
    exact nomatch h

/-- A number of two bytes that was read stood in front, as it is written. -/
theorem readU16_ahead_eq_ok {position : Nat} {bytes : Bytes} {n : UInt16} {c : Cursor}
    (h : (ahead position bytes).readU16 = .ok (n, c)) :
    ∃ rest, bytes = toLittleEndian 2 n.toNat ++ rest ∧ c = ahead (position + 2) rest := by
  obtain ⟨⟨taken, c'⟩, htake, heq⟩ := Except.map_eq_ok.mp h
  obtain ⟨hlength, rest, hbytes, hc⟩ := take_ahead_eq_ok htake
  cases heq
  have hlt : littleEndian taken < 2 ^ 16 := by
    have hlt := littleEndian_lt taken
    rwa [hlength] at hlt
  refine ⟨rest, ?_, hc⟩
  rw [UInt16.toNat_ofNat_of_lt' hlt, ← hlength, toLittleEndian_littleEndian]
  exact hbytes

/-! ## Reading in place -/

/-- The cursor that has read the first `p` of some bytes. -/
def after (bytes : Bytes) (p : Nat) : Cursor :=
  ahead p (bytes.drop p)

theorem ofBytes_eq_after (bytes : Bytes) : ofBytes bytes = after bytes 0 := rfl

@[simp] theorem rest_after (bytes : Bytes) (p : Nat) : (after bytes p).rest = bytes.drop p := rfl

@[simp] theorem remaining_after (bytes : Bytes) (p : Nat) :
    (after bytes p).remaining = bytes.length - p :=
  List.length_drop

/-- What taking bytes in place comes to. -/
theorem take_after {bytes : Bytes} {p : Nat} (hp : p ≤ bytes.length) (n : Nat) :
    (after bytes p).take n
      = if p + n ≤ bytes.length then .ok (part bytes p n, after bytes (p + n))
        else .error (.underflow p n (bytes.length - p)) := by
  rw [after, take_ahead, List.length_drop, List.drop_drop]
  by_cases h : p + n ≤ bytes.length
  · rw [if_pos h, if_pos (by omega)]
    rfl
  · rw [if_neg h, if_neg (by omega)]

/-- What a read in place comes to that makes something of the bytes it
    takes. -/
theorem map_take_after {α : Type} {bytes : Bytes} {p : Nat} (hp : p ≤ bytes.length) (n : Nat)
    (f : Bytes → α) :
    ((after bytes p).take n).map (fun (taken, c) => (f taken, c))
      = if p + n ≤ bytes.length then .ok (f (part bytes p n), after bytes (p + n))
        else .error (.underflow p n (bytes.length - p)) := by
  rw [take_after hp]
  by_cases h : p + n ≤ bytes.length
  · rw [if_pos h, if_pos h]
    rfl
  · rw [if_neg h, if_neg h]
    rfl

/-- What reading a number of four bytes in place comes to. -/
theorem readU32_after {bytes : Bytes} {p : Nat} (hp : p ≤ bytes.length) :
    (after bytes p).readU32
      = if p + 4 ≤ bytes.length then .ok (.ofNat (numberAt bytes 4 p), after bytes (p + 4))
        else .error (.underflow p 4 (bytes.length - p)) :=
  map_take_after hp 4 fun taken => UInt32.ofNat (littleEndian taken)

/-- What reading a number of two bytes in place comes to. -/
theorem readU16_after {bytes : Bytes} {p : Nat} (hp : p ≤ bytes.length) :
    (after bytes p).readU16
      = if p + 2 ≤ bytes.length then .ok (.ofNat (numberAt bytes 2 p), after bytes (p + 2))
        else .error (.underflow p 2 (bytes.length - p)) :=
  map_take_after hp 2 fun taken => UInt16.ofNat (littleEndian taken)

/-- Bytes that are there are passed over. -/
theorem skip_after {bytes : Bytes} {p n : Nat} (h : p + n ≤ bytes.length) :
    (after bytes p).skip n = .ok (after bytes (p + n)) := by
  rw [skip, take_after (by omega), if_pos h]
  rfl

end Cursor

end DiskKeys
