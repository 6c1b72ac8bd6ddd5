import DiskKeys.Proofs.Archive.RoundTrip
import DiskKeys.Proofs.Archive.Placement
import DiskKeys.Proofs.Archive.Unread

/-! # How much of an archive decoding reads

    Every range in an archive is compared with the bytes that are left, so
    cutting bytes off or adding some moves all limits at once.  Yet the
    entries stand where the headers before them say, and a header says the
    same whatever comes behind it.  So entries that fit go on fitting as
    long as their own bytes are there (`Fits.congr`), and an entry that is
    cut is refused for just that, wherever the cut is (`verdict_of_cut`).

    An accepted archive is therefore read up to where its last entry ends
    and not beyond: with fewer bytes it is refused as cut off, with these
    and any more it holds the same files.  And what is wrong with a header
    that is there stays wrong (`decode_consumes`). -/

namespace DiskKeys

/-- The refusal says that bytes are missing. -/
def ArchiveError.IsCutOff : ArchiveError → Prop
  | .truncated _ => True
  | .bounds _ _ _ => True
  | _ => False

/-- The refusal says that the header of an entry makes no sense. -/
def ArchiveError.IsMalformed : ArchiveError → Prop
  | .oddNameSize _ _ => True
  | .overlap _ _ => True
  | _ => False

namespace Archive

/-! ## Verdicts on a header -/

/-- The parts of an entry are checked in turn: that the name is made of
    whole units, that it and the payload are in bounds, and that they end
    past the header. -/
theorem spans_eq (h : EntryHeader) (index limit : Nat) :
    h.spans index limit =
      if h.nameSize.toNat % 2 ≠ 0 then .error (.oddNameSize index h.nameSize.toNat)
      else if limit < h.nameOffset.toNat + h.nameSize.toNat then
        .error (.bounds index .name (.outOfBounds h.nameOffset.toNat h.nameSize.toNat limit))
      else if limit < h.payloadOffset.toNat + h.payloadSize.toNat then
        .error (.bounds index .payload
          (.outOfBounds h.payloadOffset.toNat h.payloadSize.toNat limit))
      else
        let extent := max (h.nameOffset.toNat + h.nameSize.toNat)
          (h.payloadOffset.toNat + h.payloadSize.toNat)
        if extent < 20 then .error (.overlap index extent)
        else .ok (⟨h.nameOffset.toNat, h.nameOffset.toNat + h.nameSize.toNat⟩,
          ⟨h.payloadOffset.toNat, h.payloadOffset.toNat + h.payloadSize.toNat⟩) := by
  unfold EntryHeader.spans Span.within
  by_cases hodd : h.nameSize.toNat % 2 ≠ 0
  · rw [if_pos hodd, if_pos hodd]
    rfl
  · by_cases hname : limit < h.nameOffset.toNat + h.nameSize.toNat
    · simp only [hodd, hname, Nat.not_le_of_lt hname, if_true, if_false]
      rfl
    · by_cases hpayload : limit < h.payloadOffset.toNat + h.payloadSize.toNat
      · simp only [hodd, hname, hpayload, Nat.le_of_not_lt hname, Nat.not_le_of_lt hpayload,
          if_true, if_false]
        rfl
      · simp only [hodd, hname, hpayload, Nat.le_of_not_lt hname, Nat.le_of_not_lt hpayload,
          if_true, if_false]
        rfl

/-- Whole units that do not end in bounds, or a payload that does not, are
    out of bounds. -/
theorem spans_of_cut {h : EntryHeader} {limit : Nat} (heven : h.nameSize.toNat % 2 = 0)
    (hcut : limit < max (h.nameOffset.toNat + h.nameSize.toNat)
      (h.payloadOffset.toNat + h.payloadSize.toNat)) (index : Nat) :
    ∃ part cause, h.spans index limit = .error (.bounds index part cause) := by
  rw [spans_eq, if_neg (by omega)]
  by_cases hname : limit < h.nameOffset.toNat + h.nameSize.toNat
  · exact ⟨.name, _, if_pos hname⟩
  · have hpayload : limit < h.payloadOffset.toNat + h.payloadSize.toNat := by omega
    rw [if_neg hname]
    exact ⟨.payload, _, if_pos hpayload⟩

/-- A header that makes no sense makes none with more room. -/
theorem spans_of_malformed {h : EntryHeader} {index limit limit' : Nat} {e : ArchiveError}
    (he : h.spans index limit = .error e) (hbad : e.IsMalformed) (hle : limit ≤ limit') :
    h.spans index limit' = .error e := by
  rw [spans_eq] at he ⊢
  by_cases hodd : h.nameSize.toNat % 2 ≠ 0
  · rw [if_pos hodd] at he ⊢
    exact he
  · rw [if_neg hodd] at he ⊢
    by_cases hname : limit < h.nameOffset.toNat + h.nameSize.toNat
    · rw [if_pos hname] at he
      cases he
      exact hbad.elim
    · rw [if_neg hname] at he
      rw [if_neg (by omega)]
      by_cases hpayload : limit < h.payloadOffset.toNat + h.payloadSize.toNat
      · rw [if_pos hpayload] at he
        cases he
        exact hbad.elim
      · rw [if_neg hpayload] at he
        rw [if_neg (by omega)]
        exact he

/-! ## Bytes in common

    `a` and `b` have their first `c` bytes in common. -/

section Common

variable {a b : Bytes} {c p : Nat} (hcommon : ∀ k, k < c → b[k]? = a[k]?)

include hcommon in
/-- They agree on a header that they have in common. -/
theorem sameHeader_common (h : p + 20 ≤ c) :
    ∀ k, p + 4 ≤ k → k < p + 20 → b[k]? = a[k]? :=
  fun k _ hto => hcommon k (by omega)

include hcommon in
/-- An entry that fits in one and has its bytes in common fits in the
    other, and ends at the same place. -/
theorem Fits.congr (h : Fits a p) (hc : p + extentAt a p ≤ c)
    (hb : p + extentAt a p ≤ b.length) : Fits b p ∧ extentAt b p = extentAt a p := by
  have hpast := h.pastHeader
  have hsame := sameHeader_common hcommon (p := p) (by omega)
  have hextent := extentAt_congr hsame
  obtain ⟨hnameSize, hnameOffset, hpayloadSize, hpayloadOffset⟩ := header_congr hsame
  refine ⟨⟨by omega, ?_, ?_, ?_, ?_⟩, hextent⟩
  · rw [hnameSize]
    exact h.wholeUnits
  · rw [hnameSize, hnameOffset]
    rw [extentAt] at hb
    omega
  · rw [hpayloadSize, hpayloadOffset]
    rw [extentAt] at hb
    omega
  · rw [hextent]
    exact hpast

include hcommon in
/-- Its file is the same in both. -/
theorem Fits.fileAt_common (h : Fits a p) (hc : p + extentAt a p ≤ c) :
    fileAt b p = fileAt a p := by
  have hpast := h.pastHeader
  obtain ⟨hnameSize, hnameOffset, hpayloadSize, hpayloadOffset⟩ :=
    header_congr (sameHeader_common hcommon (p := p) (by omega))
  rw [extentAt] at hc
  have hunits : unitsAt b (p + nameOffsetAt a p) (nameSizeAt a p)
      = unitsAt a (p + nameOffsetAt a p) (nameSizeAt a p) :=
    unitsAt_congr fun k _ hto => hcommon k (by omega)
  have hpayload : part b (p + payloadOffsetAt a p) (payloadSizeAt a p)
      = part a (p + payloadOffsetAt a p) (payloadSizeAt a p) :=
    part_congr fun k _ hto => hcommon k (by omega)
  simp only [fileAt, nameAt, hnameSize, hnameOffset, hpayloadSize, hpayloadOffset, hunits,
    hpayload]

end Common

/-! ## Archives that are cut or go on -/

section Cut

variable {a b : Bytes} {files : List ProvisionFile}

/-- An archive that is there up to the end of its entries holds its files,
    whatever follows. -/
theorem decode_common (h : decode a = .ok files)
    (hcommon : ∀ k, k < entryStart a files.length → b[k]? = a[k]?)
    (hb : entryStart a files.length ≤ b.length) : decode b = .ok files := by
  obtain ⟨-, hcount, -, hall⟩ := fits_of_decode h
  have hstart := le_entryStart a files.length
  refine decode_eq_ok_iff.mpr ⟨by omega, ?_, entryStart a, rfl, hb, ?_⟩
  · rw [numberAt_common hcommon (by omega)]
    exact hcount
  · intro i hi
    obtain ⟨hfits, hfile⟩ := hall i hi
    have hend := extent_le_entryStart a hi
    obtain ⟨hwhole, hextent⟩ := hfits.congr hcommon hend (by omega)
    refine ⟨hwhole, ?_, ?_⟩
    · rw [hextent]
      rfl
    · rw [hfits.fileAt_common hcommon hend]
      exact hfile

/-- An entry that fits but is cut is refused for that. -/
theorem verdict_of_cut {p : Nat} (h : Fits a p) (hcommon : ∀ k, k < b.length → b[k]? = a[k]?)
    (hcut : b.length < p + extentAt a p) (index : Nat) :
    ∃ e, verdict b index p = .error e ∧ e.IsCutOff := by
  unfold verdict
  by_cases hheader : p + 20 ≤ b.length
  · obtain ⟨hnameSize, hnameOffset, hpayloadSize, hpayloadOffset⟩ := toNat_headerAt a p
    have heven : (headerAt a p).nameSize.toNat % 2 = 0 := by
      rw [hnameSize]
      exact h.wholeUnits
    have hlimit : b.length - p < max
        ((headerAt a p).nameOffset.toNat + (headerAt a p).nameSize.toNat)
        ((headerAt a p).payloadOffset.toNat + (headerAt a p).payloadSize.toNat) := by
      rw [hnameSize, hnameOffset, hpayloadSize, hpayloadOffset]
      rw [extentAt] at hcut
      omega
    obtain ⟨part, cause, hspans⟩ := spans_of_cut heven hlimit index
    refine ⟨.bounds index part cause, ?_, trivial⟩
    rw [if_pos hheader, headerAt_congr (sameHeader_common hcommon hheader), hspans]
    rfl
  · exact ⟨_, if_neg hheader, trivial⟩

/-- Of entries in a row that fit, the first that is cut is refused. -/
theorem readEntries_of_cut (count i : Nat)
    (hfits : ∀ j, i ≤ j → j < i + count → Fits a (entryStart a j))
    (hcommon : ∀ k, k < b.length → b[k]? = a[k]?) (hstart : entryStart a i ≤ b.length)
    (hcut : b.length < entryStart a (i + count)) :
    ∃ e, readEntries count i (.after b (entryStart a i)) = .error e ∧ e.IsCutOff := by
  induction count generalizing i with
  | zero => exact absurd hcut (Nat.not_lt_of_le hstart)
  | succ count ih =>
      have hfirst := hfits i (Nat.le_refl i) (by omega)
      by_cases hnext : entryStart a (i + 1) ≤ b.length
      · -- this entry is whole, and the cut is in a later one
        have hlater : b.length < entryStart a (i + 1 + count) := by
          rwa [Nat.add_right_comm, Nat.add_assoc]
        obtain ⟨e, hread, hcutOff⟩ := ih (i + 1) (fun j hij hj => hfits j (by omega) (by omega))
          hnext hlater
        obtain ⟨hwhole, hextent⟩ := hfirst.congr hcommon hnext hnext
        refine ⟨e, ?_, hcutOff⟩
        rw [readEntries_of_fits hwhole, hextent]
        show (readEntries count (i + 1) (.after b (entryStart a (i + 1)))).map _ = _
        rw [hread]
        rfl
      · obtain ⟨e, hverdict, hcutOff⟩ :=
          verdict_of_cut hfirst hcommon (Nat.lt_of_not_le hnext) i
        exact ⟨e, readEntries_of_verdict hstart hverdict count, hcutOff⟩

/-- An archive that is not there up to the end of its entries is refused as
    cut off. -/
theorem decode_of_cut (h : decode a = .ok files)
    (hcommon : ∀ k, k < b.length → b[k]? = a[k]?)
    (hcut : b.length < entryStart a files.length) :
    ∃ e, decode b = .error e ∧ e.IsCutOff := by
  obtain ⟨-, hcount, -, hall⟩ := fits_of_decode h
  by_cases hheader : 8 ≤ b.length
  · rw [decode_of_header hheader, numberAt_common hcommon hheader, ← hcount]
    show ∃ e, readEntries files.length 0 (.after b (entryStart a 0)) = .error e ∧ e.IsCutOff
    refine readEntries_of_cut files.length 0 ?_ hcommon hheader ?_
    · intro j _ hj
      exact (hall j (by omega)).1
    · rwa [Nat.zero_add]
  · exact ⟨_, decode_of_short (Nat.lt_of_not_le hheader), trivial⟩

/-- A header that makes no sense gets its verdict whatever follows. -/
theorem verdict_of_malformed {index p : Nat} {e : ArchiveError} (hbad : e.IsMalformed)
    (hcommon : ∀ k, k < a.length → b[k]? = a[k]?) (hb : a.length ≤ b.length)
    (h : verdict a index p = .error e) : verdict b index p = .error e := by
  unfold verdict at h ⊢
  by_cases hheader : p + 20 ≤ a.length
  · rw [if_pos hheader] at h
    rw [if_pos (by omega), headerAt_congr (sameHeader_common hcommon hheader)]
    cases hspans : (headerAt a p).spans index (a.length - p) with
    | ok s =>
        rw [hspans] at h
        exact nomatch h
    | error e' =>
        rw [hspans] at h
        cases h
        rw [spans_of_malformed hspans hbad (by omega)]
        rfl
  · -- a header that is not there is refused as cut off
    rw [if_neg hheader] at h
    cases h
    exact hbad.elim

/-- Entries in a row that are refused for a header that makes no sense are
    refused for it whatever follows. -/
theorem readEntries_of_malformed (count i : Nat) {e : ArchiveError} (hbad : e.IsMalformed)
    (hcommon : ∀ k, k < a.length → b[k]? = a[k]?) (hb : a.length ≤ b.length)
    (hstart : entryStart a i ≤ a.length)
    (h : readEntries count i (.after a (entryStart a i)) = .error e) :
    readEntries count i (.after b (entryStart a i)) = .error e := by
  induction count generalizing i with
  | zero => exact nomatch h
  | succ count ih =>
      cases hverdict : verdict a i (entryStart a i) with
      | ok u =>
          have hfits := verdict_eq_ok_iff.mp hverdict
          have hend := hfits.extent_le
          obtain ⟨hwhole, hextent⟩ := hfits.congr hcommon hend (by omega)
          rw [readEntries_of_fits hfits] at h
          rw [readEntries_of_fits hwhole, hextent]
          -- so it is an entry behind this one that is refused
          cases hrest : readEntries count (i + 1)
              (.after a (entryStart a i + extentAt a (entryStart a i))) with
          | ok rest =>
              rw [hrest] at h
              exact nomatch h
          | error e' =>
              rw [hrest] at h
              cases h
              have hlater := ih (i + 1) hend hrest
              rw [entryStart] at hlater
              rw [hlater]
              rfl
      | error e' =>
          rw [readEntries_of_verdict hstart hverdict] at h
          cases h
          exact readEntries_of_verdict (Nat.le_trans hstart hb)
            (verdict_of_malformed hbad hcommon hb hverdict) count

/-- A header that makes no sense is refused whatever follows. -/
theorem decode_of_malformed {e : ArchiveError} (hbad : e.IsMalformed)
    (hcommon : ∀ k, k < a.length → b[k]? = a[k]?) (hb : a.length ≤ b.length)
    (h : decode a = .error e) : decode b = .error e := by
  by_cases hheader : 8 ≤ a.length
  · rw [decode_of_header hheader] at h
    rw [decode_of_header (by omega), numberAt_common hcommon hheader]
    show readEntries (numberAt a 4 4) 0 (.after b (entryStart a 0)) = .error e
    exact readEntries_of_malformed _ 0 hbad hcommon hb hheader h
  · rw [decode_of_short (Nat.lt_of_not_le hheader)] at h
    cases h
    exact hbad.elim

end Cut

/-- **Decoding reads so much of an archive and no more.**  An accepted
    archive has a length up to which it is read: cut off anywhere behind
    that or with any bytes added, it holds the same files, and cut off
    before it, it is refused for missing bytes.  What encoding gives is
    read to its end.  And bytes that are refused for a header that makes no
    sense are refused for the same header whatever is added. -/
theorem decode_consumes (a : Bytes) :
    (∀ files, decode a = .ok files → ∃ c, c ≤ a.length ∧
      (∀ m, c ≤ m → decode (a.take m) = .ok files) ∧
      (∀ tail, decode (a ++ tail) = .ok files) ∧
      (∀ m, m < c → ∃ e, decode (a.take m) = .error e ∧ e.IsCutOff) ∧
      ∀ packed, encode packed = .ok a → c = a.length) ∧
    ∀ e, decode a = .error e → e.IsMalformed → ∀ tail, decode (a ++ tail) = .error e := by
  have htail : ∀ (tail : Bytes) (k : Nat), k < a.length → (a ++ tail)[k]? = a[k]? :=
    fun tail k hk => List.getElem?_append_left hk
  have hlonger : ∀ tail : Bytes, a.length ≤ (a ++ tail).length := by
    intro tail
    rw [List.length_append]
    exact Nat.le_add_right _ _
  constructor
  · intro files h
    obtain ⟨-, -, hend, -⟩ := fits_of_decode h
    have htake : ∀ m k, k < m → (a.take m)[k]? = a[k]? :=
      fun m k hk => List.getElem?_take_of_lt hk
    refine ⟨entryStart a files.length, hend, ?_, ?_, ?_, ?_⟩
    · intro m hm
      refine decode_common h (fun k hk => htake m k (by omega)) ?_
      rw [List.length_take]
      omega
    · intro tail
      exact decode_common h (fun k hk => htail tail k (by omega)) (Nat.le_trans hend (hlonger tail))
    · intro m hm
      have hlength : (a.take m).length = m := List.length_take_of_le (by omega)
      refine decode_of_cut h (fun k hk => htake m k (by omega)) ?_
      rwa [hlength]
    · intro packed hencode
      obtain ⟨hnul, hsize, rfl⟩ := encode_eq_ok_iff.mp hencode
      rw [decode_archiveBytes hnul hsize] at h
      cases h
      rw [List.length_map]
      exact entryStart_length_archiveBytes hsize
  · intro e h hbad tail
    exact decode_of_malformed hbad (htail tail) (hlonger tail) h

/-- An archive of one entry with a name of one byte, which is no whole
    unit. -/
def oddlyNamed : Bytes :=
  [29, 0, 0, 0, 1, 0, 0, 0, 0, 0, 0, 0, 1, 0, 0, 0, 20, 0, 0, 0, 0, 0, 0, 0, 20, 0, 0, 0, 0x41]

/-- An archive with a byte to spare is read up to that, and no byte to spare
    helps one with half a unit. -/
theorem decode_consumes_selfNamed :
    (∃ c, c ≤ 29 ∧ (∀ m, c ≤ m → decode ((selfNamed 0x42 0x42 ++ [9]).take m) = .ok [⟨"BB", []⟩]) ∧
      ∀ m, m < c → ∃ e, decode ((selfNamed 0x42 0x42 ++ [9]).take m) = .error e ∧ e.IsCutOff) ∧
    decode (oddlyNamed ++ [0]) = .error (.oddNameSize 0 1) := by
  have haccepted : decode (selfNamed 0x42 0x42 ++ [9]) = .ok [⟨"BB", []⟩] := by decide +kernel
  have hrefused : decode oddlyNamed = .error (.oddNameSize 0 1) := by decide +kernel
  obtain ⟨c, hc, hlonger, -, hshorter, -⟩ := (decode_consumes _).1 _ haccepted
  exact ⟨⟨c, hc, hlonger, hshorter⟩, (decode_consumes _).2 _ hrefused trivial [0]⟩

end Archive

end DiskKeys
