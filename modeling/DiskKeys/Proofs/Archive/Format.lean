import Mathlib.Order.Monotone.Basic
import DiskKeys.Proofs.Archive.Name
import DiskKeys.Proofs.Bytes.Cursor

/-! # Which bytes are an archive

    The format is described here by places alone, without a cursor: where
    an entry starts, what its header says there, where its data ends and
    the next entry starts (`Fits`, `Conforms`).  Reading an entry comes to
    a verdict on the numbers in its header, and if that is good, to the
    file at its place and the place after it (`readEntry_after`).  So
    decoding accepts exactly what conforms (`decode_eq_ok_iff`). -/

namespace DiskKeys.Archive

/-! ## The format

    The header of the entry at `p` says how large its name and its payload
    are and where they start, counted from `p`. -/

def nameSizeAt (a : Bytes) (p : Nat) : Nat :=
  numberAt a 4 (p + 4)

def nameOffsetAt (a : Bytes) (p : Nat) : Nat :=
  numberAt a 4 (p + 8)

def payloadSizeAt (a : Bytes) (p : Nat) : Nat :=
  numberAt a 4 (p + 12)

def payloadOffsetAt (a : Bytes) (p : Nat) : Nat :=
  numberAt a 4 (p + 16)

/-- Where the farther of name and payload of the entry at `p` ends, counted
    from `p`. -/
def extentAt (a : Bytes) (p : Nat) : Nat :=
  max (nameOffsetAt a p + nameSizeAt a p) (payloadOffsetAt a p + payloadSizeAt a p)

/-- The numbers of two bytes of which a part is made. -/
def unitsAt (a : Bytes) (start size : Nat) : List Nat :=
  (List.range (size / 2)).map fun j => numberAt a 2 (start + 2 * j)

/-- The name in a part: its units before the first zero, each reduced to a
    byte; one name stands for another. -/
def nameAt (a : Bytes) (start size : Nat) : String :=
  let name := String.ofList
    (((unitsAt a start size).takeWhile (· ≠ 0)).map fun unit => .ofNat (unit % 256))
  if name = "unattend.xml" then "specialize" else name

/-- The file of the entry at `p`. -/
def fileAt (a : Bytes) (p : Nat) : ProvisionFile :=
  ⟨nameAt a (p + nameOffsetAt a p) (nameSizeAt a p),
    part a (p + payloadOffsetAt a p) (payloadSizeAt a p)⟩

/-- The entry at `p` lies in the archive: its header, its name, which is
    made of whole units, and its payload; and its data ends past its
    header. -/
structure Fits (a : Bytes) (p : Nat) : Prop where
  header : p + 20 ≤ a.length
  wholeUnits : nameSizeAt a p % 2 = 0
  name : p + nameOffsetAt a p + nameSizeAt a p ≤ a.length
  payload : p + payloadOffsetAt a p + payloadSizeAt a p ≤ a.length
  pastHeader : 20 ≤ extentAt a p

/-- An archive holds files: as many as its header says, in entries that lie
    one after the other from the end of its header on. -/
def Conforms (a : Bytes) (files : List ProvisionFile) : Prop :=
  8 ≤ a.length ∧ files.length = numberAt a 4 4 ∧
  ∃ p : Nat → Nat, p 0 = 8 ∧ p files.length ≤ a.length ∧
    ∀ i (h : i < files.length),
      Fits a (p i) ∧ p (i + 1) = p i + extentAt a (p i) ∧ files[i] = fileAt a (p i)

theorem Fits.extent_le {a : Bytes} {p : Nat} (h : Fits a p) : p + extentAt a p ≤ a.length := by
  have hname := h.name
  have hpayload := h.payload
  rw [extentAt]
  omega

/-! ## Names -/

/-- The units that decoding reads off bytes are the numbers of two bytes of
    which they are made. -/
theorem map_toNat_unitsOf (bytes : Bytes) :
    (unitsOf bytes).map UInt16.toNat = unitsAt bytes 0 bytes.length := by
  induction bytes using unitsOf.induct with
  | case1 low high rest ih =>
      have hread : (UInt16.ofNat (littleEndian [low, high])).toNat = littleEndian [low, high] :=
        UInt16.toNat_ofNat_of_lt' ((littleEndian_lt [low, high]).trans_eq (by simp))
      have hcount : (low :: high :: rest).length / 2 = rest.length / 2 + 1 := by
        simp only [List.length_cons]
        omega
      rw [unitsOf, List.map_cons, hread, ih, unitsAt, unitsAt, hcount, List.range_succ_eq_map,
        List.map_cons, List.map_map]
      -- what is at a place in the rest is two places further on in the whole
      rfl
  | case2 bytes hshort =>
      rcases bytes with _ | ⟨low, _ | ⟨high, rest⟩⟩
      · rfl
      · simp [unitsOf, unitsAt]
      · exact absurd rfl (hshort low high rest)

theorem unitsAt_part (a : Bytes) (start size : Nat) :
    unitsAt (part a start size) 0 size = unitsAt a start size := by
  rw [unitsAt, unitsAt]
  apply List.map_congr_left
  intro j hj
  have hlt := List.mem_range.mp hj
  rw [numberAt, numberAt, part_part a (by omega), Nat.zero_add]

/-- Where bytes agree, so do the units in them. -/
theorem unitsAt_congr {a b : Bytes} {start size : Nat}
    (h : ∀ k, start ≤ k → k < start + size → b[k]? = a[k]?) :
    unitsAt b start size = unitsAt a start size := by
  rw [unitsAt, unitsAt]
  apply List.map_congr_left
  intro j hj
  have hlt := List.mem_range.mp hj
  exact numberAt_congr fun k hfrom hto => h k (by omega) (by omega)

/-- The name that decoding spells from a part is the name in it. -/
theorem expose_spell_part {a : Bytes} {start size : Nat} (h : start + size ≤ a.length) :
    expose (spell (unitsOf (part a start size))) = nameAt a start size := by
  have hunits : (unitsOf (part a start size)).map UInt16.toNat = unitsAt a start size := by
    rw [map_toNat_unitsOf, length_part h, unitsAt_part]
  have hzero : (fun unit : UInt16 => decide (unit ≠ 0))
      = (fun n : Nat => decide (n ≠ 0)) ∘ UInt16.toNat := by
    funext unit
    have hiff : unit ≠ 0 ↔ unit.toNat ≠ 0 := by
      rw [ne_eq, ne_eq, ← UInt16.toNat_inj]
      rfl
    simp only [Function.comp_apply, hiff]
  have hspell : spell (unitsOf (part a start size))
      = .ofList (((unitsAt a start size).takeWhile (· ≠ 0)).map
          fun unit => .ofNat (unit % 256)) := by
    rw [spell, hzero, ← hunits, List.takeWhile_map, List.map_map]
    rfl
  rw [expose, hspell]
  rfl

/-! ## Reading one entry -/

def headerAt (a : Bytes) (p : Nat) : EntryHeader where
  nameSize := .ofNat (nameSizeAt a p)
  nameOffset := .ofNat (nameOffsetAt a p)
  payloadSize := .ofNat (payloadSizeAt a p)
  payloadOffset := .ofNat (payloadOffsetAt a p)

section SameHeader

/-! Bytes `a` and `b` that agree on the header at `p` but for its type. -/

variable {a b : Bytes} {p : Nat} (hsame : ∀ k, p + 4 ≤ k → k < p + 20 → b[k]? = a[k]?)

include hsame in
theorem header_congr :
    nameSizeAt b p = nameSizeAt a p ∧ nameOffsetAt b p = nameOffsetAt a p ∧
    payloadSizeAt b p = payloadSizeAt a p ∧ payloadOffsetAt b p = payloadOffsetAt a p := by
  have hword : ∀ offset, 4 ≤ offset → offset ≤ 16 →
      numberAt b 4 (p + offset) = numberAt a 4 (p + offset) := by
    intro offset hlow hhigh
    exact numberAt_congr fun k hfrom hto => hsame k (by omega) (by omega)
  exact ⟨hword 4 (by decide) (by decide), hword 8 (by decide) (by decide),
    hword 12 (by decide) (by decide), hword 16 (by decide) (by decide)⟩

include hsame in
theorem extentAt_congr : extentAt b p = extentAt a p := by
  obtain ⟨hnameSize, hnameOffset, hpayloadSize, hpayloadOffset⟩ := header_congr hsame
  rw [extentAt, extentAt, hnameSize, hnameOffset, hpayloadSize, hpayloadOffset]

include hsame in
theorem headerAt_congr : headerAt b p = headerAt a p := by
  obtain ⟨hnameSize, hnameOffset, hpayloadSize, hpayloadOffset⟩ := header_congr hsame
  rw [headerAt, headerAt, hnameSize, hnameOffset, hpayloadSize, hpayloadOffset]

end SameHeader

/-- A header in place is read; of one that is cut off the words before the
    cut are read. -/
theorem read_after {a : Bytes} {p : Nat} (hp : p ≤ a.length) :
    EntryHeader.read (.after a p)
      = if p + 20 ≤ a.length then .ok (headerAt a p, .after a (p + 20))
        else .error (.underflow (p + (a.length - p) / 4 * 4) 4 ((a.length - p) % 4)) := by
  have hword : ∀ q, q + 4 ≤ a.length →
      Cursor.readU32 (.after a q) = .ok (.ofNat (numberAt a 4 q), .after a (q + 4)) := by
    intro q hq
    rw [Cursor.readU32_after (by omega), if_pos hq]
  -- whichever word is cut off, the error tells the place of the cut
  have hcut : ∀ q, p ≤ q → (q - p) % 4 = 0 → q ≤ a.length → a.length < q + 4 →
      Cursor.readU32 (.after a q)
        = .error (.underflow (p + (a.length - p) / 4 * 4) 4 ((a.length - p) % 4)) := by
    intro q hpq hwhole hq hnext
    rw [Cursor.readU32_after hq, if_neg (by omega)]
    congr 2
    · omega
    · omega
  by_cases h : p + 20 ≤ a.length
  · rw [if_pos h]
    simp only [EntryHeader.read, hword p (by omega), hword (p + 4) (by omega),
      hword (p + 8) (by omega), hword (p + 12) (by omega), hword (p + 16) (by omega),
      Except.ok_bind, Nat.add_assoc, Nat.reduceAdd, Except.pure_eq_ok]
    rfl
  · -- one of the five words is the first that is not there
    rw [if_neg h]
    have hfirst : a.length < p + 4 ∨ (p + 4 ≤ a.length ∧ a.length < p + 8) ∨
        (p + 8 ≤ a.length ∧ a.length < p + 12) ∨ (p + 12 ≤ a.length ∧ a.length < p + 16) ∨
        (p + 16 ≤ a.length ∧ a.length < p + 20) := by omega
    rcases hfirst with h₁ | h₂ | h₃ | h₄ | h₅
    all_goals
      simp (disch := omega) only [EntryHeader.read, hword, hcut, Except.ok_bind, Nat.add_assoc,
        Nat.reduceAdd]
      rfl

/-! ## Verdicts -/

/-- What is wrong with the entry at `p`, which has the given index. -/
def verdict (a : Bytes) (index p : Nat) : Except ArchiveError Unit :=
  if p + 20 ≤ a.length then ((headerAt a p).spans index (a.length - p)).map fun _ => ()
  else .error (.truncated (.underflow (p + (a.length - p) / 4 * 4) 4 ((a.length - p) % 4)))

theorem within_eq_ok_iff {offset len limit : Nat} {s : Span} :
    Span.within offset len limit = .ok s ↔ offset + len ≤ limit ∧ s = ⟨offset, offset + len⟩ := by
  rw [Span.within]
  by_cases h : offset + len ≤ limit
  · simp [h, eq_comm]
  · simp [h]

/-- The parts of an entry are found exactly when they lie in the archive and
    end past the header. -/
theorem spans_eq_ok_iff {h : EntryHeader} {index limit : Nat} {s : Span × Span} :
    h.spans index limit = .ok s ↔
      h.nameSize.toNat % 2 = 0 ∧
      h.nameOffset.toNat + h.nameSize.toNat ≤ limit ∧
      h.payloadOffset.toNat + h.payloadSize.toNat ≤ limit ∧
      20 ≤ max (h.nameOffset.toNat + h.nameSize.toNat)
        (h.payloadOffset.toNat + h.payloadSize.toNat) ∧
      s = (⟨h.nameOffset.toNat, h.nameOffset.toNat + h.nameSize.toNat⟩,
        ⟨h.payloadOffset.toNat, h.payloadOffset.toNat + h.payloadSize.toNat⟩) := by
  simp only [EntryHeader.spans, Except.bind_eq_ok, Except.throw_bind, Except.guard_eq_ok,
    Except.mapError_eq_ok, within_eq_ok_iff, Except.pure_eq_ok, Except.ok.injEq, not_not]
  constructor
  · rintro ⟨heven, name, ⟨hname, rfl⟩, payload, ⟨hpayload, rfl⟩, hpast, rfl⟩
    exact ⟨heven, hname, hpayload, Nat.le_of_not_lt hpast, rfl⟩
  · rintro ⟨heven, hname, hpayload, hpast, rfl⟩
    exact ⟨heven, _, ⟨hname, rfl⟩, _, ⟨hpayload, rfl⟩, Nat.not_lt_of_le hpast, rfl⟩

/-- The numbers of an entry fit in four bytes, so its header says what they
    are. -/
theorem toNat_headerAt (a : Bytes) (p : Nat) :
    (headerAt a p).nameSize.toNat = nameSizeAt a p ∧
    (headerAt a p).nameOffset.toNat = nameOffsetAt a p ∧
    (headerAt a p).payloadSize.toNat = payloadSizeAt a p ∧
    (headerAt a p).payloadOffset.toNat = payloadOffsetAt a p :=
  ⟨UInt32.toNat_ofNat_of_lt' (numberAt_lt a 4 _), UInt32.toNat_ofNat_of_lt' (numberAt_lt a 4 _),
    UInt32.toNat_ofNat_of_lt' (numberAt_lt a 4 _), UInt32.toNat_ofNat_of_lt' (numberAt_lt a 4 _)⟩

theorem verdict_eq_ok_iff {a : Bytes} {index p : Nat} : verdict a index p = .ok () ↔ Fits a p := by
  obtain ⟨hnameSize, hnameOffset, hpayloadSize, hpayloadOffset⟩ := toNat_headerAt a p
  rw [verdict]
  by_cases h : p + 20 ≤ a.length
  · rw [if_pos h]
    constructor
    · intro hok
      obtain ⟨s, hspans, -⟩ := Except.map_eq_ok.mp hok
      obtain ⟨heven, hname, hpayload, hpast, -⟩ := spans_eq_ok_iff.mp hspans
      rw [hnameSize] at heven
      rw [hnameSize, hnameOffset] at hname
      rw [hpayloadSize, hpayloadOffset] at hpayload
      rw [hnameSize, hnameOffset, hpayloadSize, hpayloadOffset] at hpast
      exact ⟨h, heven, by omega, by omega, hpast⟩
    · intro hfits
      have hname := hfits.name
      have hpayload := hfits.payload
      refine Except.map_eq_ok.mpr ⟨_, spans_eq_ok_iff.mpr ⟨?_, ?_, ?_, ?_, rfl⟩, rfl⟩
      · rw [hnameSize]
        exact hfits.wholeUnits
      · rw [hnameSize, hnameOffset]
        omega
      · rw [hpayloadSize, hpayloadOffset]
        omega
      · rw [hnameSize, hnameOffset, hpayloadSize, hpayloadOffset]
        exact hfits.pastHeader
  · rw [if_neg h]
    exact ⟨nofun, fun hfits => absurd hfits.header h⟩

theorem slice_drop (a : Bytes) (p offset size : Nat) :
    Span.slice ⟨offset, offset + size⟩ (a.drop p) = part a (p + offset) size := by
  rw [Span.slice, part, List.drop_drop, Nat.add_sub_cancel_left]

/-- An entry that fits is read, and the cursor goes to where its data
    ends. -/
theorem readEntry_of_fits {a : Bytes} {p : Nat} (h : Fits a p) (index : Nat) :
    readEntry index (.after a p) = .ok (fileAt a p, .after a (p + extentAt a p)) := by
  obtain ⟨hnameSize, hnameOffset, hpayloadSize, hpayloadOffset⟩ := toNat_headerAt a p
  have hend := h.extent_le
  have hpast := h.pastHeader
  have hread : EntryHeader.read (.after a p) = .ok (headerAt a p, .after a (p + 20)) := by
    rw [read_after (by omega), if_pos h.header]
  have hspans : (headerAt a p).spans index (Cursor.after a p).remaining
      = .ok (⟨nameOffsetAt a p, nameOffsetAt a p + nameSizeAt a p⟩,
        ⟨payloadOffsetAt a p, payloadOffsetAt a p + payloadSizeAt a p⟩) := by
    have hname := h.name
    have hpayload := h.payload
    rw [spans_eq_ok_iff, hnameSize, hnameOffset, hpayloadSize, hpayloadOffset,
      Cursor.remaining_after]
    exact ⟨h.wholeUnits, by omega, by omega, hpast, rfl⟩
  -- the cursor is behind the header by now, and skips the rest of the extent
  have hskip : (Cursor.after a (p + 20)).skip (extentAt a p - entryHeaderSize)
      = .ok (.after a (p + extentAt a p)) := by
    rw [Cursor.skip_after (by rw [entryHeaderSize]; omega), entryHeaderSize]
    congr 2
    omega
  rw [readEntry, hread, Except.mapError_ok, Except.ok_bind]
  show ((headerAt a p).spans index (Cursor.after a p).remaining >>= _) = _
  rw [hspans, Except.ok_bind]
  show ((Cursor.skip _ (extentAt a p - entryHeaderSize)).mapError _ >>= _) = _
  rw [hskip, Except.mapError_ok, Except.ok_bind, Cursor.rest_after, slice_drop, slice_drop,
    expose_spell_part h.name]
  rfl

/-- Reading an entry comes to the verdict on it, and if that is good, to the
    file at its place and the place where its data ends. -/
theorem readEntry_after {a : Bytes} {p : Nat} (hp : p ≤ a.length) (index : Nat) :
    readEntry index (.after a p)
      = (verdict a index p).map fun _ => (fileAt a p, .after a (p + extentAt a p)) := by
  cases hverdict : verdict a index p with
  | ok u => exact readEntry_of_fits (verdict_eq_ok_iff.mp hverdict) index
  | error e =>
      -- the verdict is the very error at which reading the header or finding the parts stops
      rw [readEntry, read_after hp]
      rw [verdict] at hverdict
      by_cases h : p + 20 ≤ a.length
      · rw [if_pos h] at hverdict ⊢
        rw [Except.mapError_ok, Except.ok_bind]
        show ((headerAt a p).spans index (Cursor.after a p).remaining >>= _) = _
        rw [Cursor.remaining_after]
        cases hspans : (headerAt a p).spans index (a.length - p) with
        | ok s =>
            rw [hspans] at hverdict
            exact nomatch hverdict
        | error e' =>
            rw [hspans] at hverdict
            cases hverdict
            rfl
      · rw [if_neg h] at hverdict ⊢
        cases hverdict
        rfl

/-- An entry that fits comes in front of the files of those behind it. -/
theorem readEntries_of_fits {a : Bytes} {p : Nat} (h : Fits a p) (count index : Nat) :
    readEntries (count + 1) index (.after a p)
      = (readEntries count (index + 1) (.after a (p + extentAt a p))).map (fileAt a p :: ·) := by
  rw [readEntries, readEntry_of_fits h]
  show (readEntries count (index + 1) (.after a (p + extentAt a p)) >>= _) = _
  cases readEntries count (index + 1) (.after a (p + extentAt a p)) with
  | error e => rfl
  | ok files => rfl

/-- A bad verdict on an entry ends the reading. -/
theorem readEntries_of_verdict {a : Bytes} {p index : Nat} {e : ArchiveError}
    (hp : p ≤ a.length) (h : verdict a index p = .error e) (count : Nat) :
    readEntries (count + 1) index (.after a p) = .error e := by
  rw [readEntries, readEntry_after hp, h]
  rfl

/-! ## Where entries start -/

/-- Where the `i`-th entry starts, if those before it fit. -/
def entryStart (a : Bytes) : Nat → Nat
  | 0 => 8
  | i + 1 => entryStart a i + extentAt a (entryStart a i)

theorem entryStart_mono (a : Bytes) : Monotone (entryStart a) :=
  monotone_nat_of_le_succ fun i => Nat.le_add_right (entryStart a i) _

/-- Entries start behind the header of the archive. -/
theorem le_entryStart (a : Bytes) (i : Nat) : 8 ≤ entryStart a i :=
  entryStart_mono a (Nat.zero_le i)

/-- The data of an entry ends before any later one starts. -/
theorem extent_le_entryStart (a : Bytes) {i j : Nat} (h : i < j) :
    entryStart a i + extentAt a (entryStart a i) ≤ entryStart a j :=
  entryStart_mono a h

/-- Entries that conform lie where they start. -/
theorem entryStart_eq {a : Bytes} {p : Nat → Nat} {n : Nat} (hfirst : p 0 = 8)
    (hnext : ∀ i, i < n → p (i + 1) = p i + extentAt a (p i)) :
    ∀ i, i ≤ n → p i = entryStart a i := by
  intro i
  induction i with
  | zero =>
      intro _
      exact hfirst
  | succ i ih =>
      intro hi
      rw [hnext i hi, ih (by omega)]
      rfl

/-- Entries are read in a row exactly when all of them fit, and give the
    files at their places. -/
theorem readEntries_eq_ok_iff {a : Bytes} {files : List ProvisionFile} (count i : Nat)
    (hi : entryStart a i ≤ a.length) :
    readEntries count i (.after a (entryStart a i)) = .ok files ↔
      files.length = count ∧
      ∀ j (h : j < files.length),
        Fits a (entryStart a (i + j)) ∧ files[j] = fileAt a (entryStart a (i + j)) := by
  induction count generalizing i files with
  | zero =>
      constructor
      · intro h
        cases h
        exact ⟨rfl, nofun⟩
      · rintro ⟨hlength, -⟩
        rw [List.length_eq_zero_iff.mp hlength]
        rfl
  | succ count ih =>
      cases hverdict : verdict a i (entryStart a i) with
      | error e =>
          rw [readEntries_of_verdict hi hverdict]
          constructor
          · exact fun h => nomatch h
          · rintro ⟨hlength, hall⟩
            have hgood : verdict a i (entryStart a i) = .ok () :=
              verdict_eq_ok_iff.mpr (hall 0 (by omega)).1
            exact nomatch hverdict.symm.trans hgood
      | ok u =>
          have hfits := verdict_eq_ok_iff.mp hverdict
          rw [readEntries_of_fits hfits, Except.map_eq_ok]
          constructor
          · rintro ⟨rest, hread, rfl⟩
            obtain ⟨hlength, hall⟩ := (ih (i + 1) hfits.extent_le).mp hread
            refine ⟨congrArg (· + 1) hlength, ?_⟩
            intro j hj
            cases j with
            | zero => exact ⟨hfits, rfl⟩
            | succ j =>
                rw [← Nat.add_assoc, Nat.add_right_comm]
                exact hall j (Nat.lt_of_succ_lt_succ hj)
          · rintro ⟨hlength, hall⟩
            cases files with
            | nil => exact nomatch hlength
            | cons f rest =>
                refine ⟨rest, (ih (i + 1) hfits.extent_le).mpr ⟨Nat.succ.inj hlength, ?_⟩, ?_⟩
                · intro j hj
                  have hlater := hall (j + 1) (Nat.succ_lt_succ hj)
                  rwa [← Nat.add_assoc, Nat.add_right_comm] at hlater
                · have hfirst : f = fileAt a (entryStart a i) := (hall 0 (Nat.succ_pos _)).2
                  rw [hfirst]

/-- What decoding comes to once the header of an archive is there. -/
theorem decode_of_header {a : Bytes} (h : 8 ≤ a.length) :
    decode a = readEntries (numberAt a 4 4) 0 (.after a (entryStart a 0)) := by
  have hcount : (UInt32.ofNat (numberAt a 4 4)).toNat = numberAt a 4 4 :=
    UInt32.toNat_ofNat_of_lt' (numberAt_lt a 4 4)
  rw [decode, Cursor.ofBytes_eq_after, Cursor.readU32_after (Nat.zero_le _), if_pos (by omega),
    Except.mapError_ok, Except.ok_bind]
  show ((Cursor.readU32 (.after a 4)).mapError _ >>= _) = _
  rw [Cursor.readU32_after (by omega), if_pos h, Except.mapError_ok, Except.ok_bind]
  show readEntries (UInt32.ofNat (numberAt a 4 4)).toNat 0 (.after a 8) = _
  rw [hcount]
  rfl

theorem decode_of_short {a : Bytes} (h : a.length < 8) :
    decode a = .error (.truncated (.underflow (a.length / 4 * 4) 4 (a.length % 4))) := by
  rw [decode, Cursor.ofBytes_eq_after, Cursor.readU32_after (Nat.zero_le _)]
  by_cases hfirst : 0 + 4 ≤ a.length
  · rw [if_pos hfirst, Except.mapError_ok, Except.ok_bind]
    show ((Cursor.readU32 (.after a 4)).mapError _ >>= _) = _
    rw [Cursor.readU32_after (by omega), if_neg (by omega), show a.length / 4 * 4 = 4 by omega,
      show a.length % 4 = a.length - 4 by omega]
    rfl
  · rw [if_neg hfirst, show a.length / 4 * 4 = 0 by omega,
      show a.length % 4 = a.length - 0 by omega]
    rfl

/-- Decoding accepts exactly what conforms. -/
theorem decode_eq_ok_iff {a : Bytes} {files : List ProvisionFile} :
    decode a = .ok files ↔ Conforms a files := by
  by_cases h : 8 ≤ a.length
  · rw [decode_of_header h, readEntries_eq_ok_iff _ 0 h]
    simp only [Nat.zero_add]
    constructor
    · rintro ⟨hlength, hall⟩
      refine ⟨h, hlength, entryStart a, rfl, ?_, fun i hi => ⟨(hall i hi).1, rfl, (hall i hi).2⟩⟩
      -- the last place is where the last entry ends, or where the first would start
      cases hlast : files.length with
      | zero => exact h
      | succ n => exact (hall n (by omega)).1.extent_le
    · rintro ⟨-, hlength, p, hfirst, -, hall⟩
      have hplace := entryStart_eq hfirst fun i hi => (hall i hi).2.1
      refine ⟨hlength, fun i hi => ?_⟩
      rw [← hplace i (Nat.le_of_lt hi)]
      exact ⟨(hall i hi).1, (hall i hi).2.2⟩
  · rw [decode_of_short (Nat.lt_of_not_le h)]
    exact ⟨nofun, fun hconforms => absurd hconforms.1 h⟩

/-- The entries of an accepted archive. -/
theorem fits_of_decode {a : Bytes} {files : List ProvisionFile} (h : decode a = .ok files) :
    8 ≤ a.length ∧ files.length = numberAt a 4 4 ∧ entryStart a files.length ≤ a.length ∧
    ∀ i (hi : i < files.length),
      Fits a (entryStart a i) ∧ files[i] = fileAt a (entryStart a i) := by
  obtain ⟨hheader, hcount, p, hfirst, hlast, hall⟩ := decode_eq_ok_iff.mp h
  have hplace := entryStart_eq hfirst fun i hi => (hall i hi).2.1
  refine ⟨hheader, hcount, ?_, ?_⟩
  · rw [← hplace files.length (Nat.le_refl _)]
    exact hlast
  · intro i hi
    rw [← hplace i (Nat.le_of_lt hi)]
    exact ⟨(hall i hi).1, (hall i hi).2.2⟩

end DiskKeys.Archive
