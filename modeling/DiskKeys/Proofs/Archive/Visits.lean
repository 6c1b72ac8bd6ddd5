import Mathlib.Algebra.Order.BigOperators.Group.List
import Mathlib.Algebra.Order.Ring.Nat
import DiskKeys.Proofs.Archive.Prefix
import DiskKeys.Proofs.Archive.Repack

/-! # How far reading an archive can go

    Whatever an archive says of itself, reading it comes to a list of
    visits, one for each entry header that is read, and the files and the
    refusal come from these visits alone (`decode_eq_mapM_visits`).  Each
    visit stays inside the archive: what it cuts out is there, and so is
    all that it skips (`safe_after`).  As an entry that is accepted takes at
    least its header's worth of bytes, which no other entry uses, their
    number and the sizes of what they give are bounded by the length of the
    archive, not by its claims (`decode_bounded`). -/

namespace DiskKeys.Archive

/-- An entry that is read: its index, and the cursor in front of its
    header. -/
structure Visit where
  index : Nat
  start : Cursor

namespace Visit

/-- What reading the entry comes to. -/
def read (v : Visit) : Except ArchiveError (ProvisionFile × Cursor) :=
  readEntry v.index v.start

/-- The header of the entry is read, which leaves the cursor `behind` it,
    and says where in the bytes from the header on the name and the payload
    are to be cut out. -/
def Finds (v : Visit) (name payload : Span) (behind : Cursor) : Prop :=
  ∃ header, EntryHeader.read v.start = .ok (header, behind) ∧
    header.spans v.index v.start.remaining = .ok (name, payload)

/-- Reading the entry never leaves the archive. -/
structure Safe (a : Bytes) (v : Visit) : Prop where
  /-- It starts at a place in the archive. -/
  start : v.start.position ≤ a.length ∧ v.start.rest = a.drop v.start.position
  /-- The name and the payload that are cut out are there. -/
  slices : ∀ name payload behind, v.Finds name payload behind →
    (name.start ≤ name.stop ∧ name.stop ≤ v.start.rest.length) ∧
    payload.start ≤ payload.stop ∧ payload.stop ≤ v.start.rest.length
  /-- They end past the header, and the way from there to their end can be
      skipped. -/
  skips : ∀ name payload behind, v.Finds name payload behind →
    entryHeaderSize ≤ max name.stop payload.stop ∧
    ∃ next, behind.skip (max name.stop payload.stop - entryHeaderSize) = .ok next
  /-- If it is accepted, the cursor has gone on by the size of a header at
      least. -/
  advances : ∀ file next, v.read = .ok (file, next) →
    v.start.position + 20 ≤ next.position ∧ next.position ≤ a.length

end Visit

/-- The visits that reading a number of entries comes to: one after the
    other, until an entry is refused. -/
def visitsFrom : (count index : Nat) → Cursor → List Visit
  | 0, _, _ => []
  | count + 1, index, c =>
      ⟨index, c⟩ :: match readEntry index c with
        | .ok (_, next) => visitsFrom count (index + 1) next
        | .error _ => []

/-- The visits that reading an archive comes to. -/
def visits (a : Bytes) : List Visit :=
  visitsFrom (numberAt a 4 4) 0 (.after a 8)

/-- Reading entries is reading those that are visited, and nothing else. -/
theorem readEntries_eq_mapM (count index : Nat) (c : Cursor) :
    readEntries count index c
      = (visitsFrom count index c).mapM fun v => v.read.map Prod.fst := by
  induction count generalizing index c with
  | zero => rfl
  | succ count ih =>
      rw [readEntries, visitsFrom, List.mapM_cons, Visit.read]
      cases hentry : readEntry index c with
      | error e => rfl
      | ok entry =>
          show (readEntries count (index + 1) entry.2 >>= _) = _
          rw [ih]
          rfl

theorem decode_eq_mapM_visits {a : Bytes} (h : 8 ≤ a.length) :
    decode a = (visits a).mapM fun v => v.read.map Prod.fst := by
  rw [decode_of_header h]
  exact readEntries_eq_mapM _ _ _

section Visits

variable {a : Bytes} {p : Nat}

/-! ## One visit -/

/-- What a visit finds are the parts that the header at its place tells
    of. -/
theorem eq_of_finds (hp : p ≤ a.length) {index : Nat} {name payload : Span} {behind : Cursor}
    (h : Visit.Finds ⟨index, .after a p⟩ name payload behind) :
    Fits a p ∧ behind = .after a (p + 20) ∧
    name = ⟨nameOffsetAt a p, nameOffsetAt a p + nameSizeAt a p⟩ ∧
    payload = ⟨payloadOffsetAt a p, payloadOffsetAt a p + payloadSizeAt a p⟩ := by
  obtain ⟨header, hread, hspans⟩ := h
  replace hread : EntryHeader.read (.after a p) = .ok (header, behind) := hread
  replace hspans : header.spans index (Cursor.after a p).remaining = .ok (name, payload) := hspans
  rw [read_after hp] at hread
  by_cases hheader : p + 20 ≤ a.length
  · rw [if_pos hheader] at hread
    cases hread
    rw [Cursor.remaining_after] at hspans
    have hverdict : verdict a index p = .ok () := by
      rw [verdict, if_pos hheader, hspans]
      rfl
    obtain ⟨hnameSize, hnameOffset, hpayloadSize, hpayloadOffset⟩ := toNat_headerAt a p
    obtain ⟨-, -, -, -, heq⟩ := spans_eq_ok_iff.mp hspans
    rw [hnameSize, hnameOffset, hpayloadSize, hpayloadOffset] at heq
    exact ⟨verdict_eq_ok_iff.mp hverdict, rfl, congrArg Prod.fst heq, congrArg Prod.snd heq⟩
  · rw [if_neg hheader] at hread
    cases hread

/-- A visit to a place in the archive stays there. -/
theorem safe_after (hp : p ≤ a.length) (index : Nat) :
    Visit.Safe a ⟨index, .after a p⟩ where
  start := ⟨hp, rfl⟩
  slices := by
    intro name payload behind hfinds
    obtain ⟨hfits, -, rfl, rfl⟩ := eq_of_finds hp hfinds
    have hrest : (Cursor.after a p).rest.length = a.length - p := List.length_drop
    have hname : nameOffsetAt a p + nameSizeAt a p ≤ a.length - p := by
      have := hfits.name
      omega
    have hpayload : payloadOffsetAt a p + payloadSizeAt a p ≤ a.length - p := by
      have := hfits.payload
      omega
    rw [hrest]
    exact ⟨⟨Nat.le_add_right _ _, hname⟩, Nat.le_add_right _ _, hpayload⟩
  skips := by
    intro name payload behind hfinds
    obtain ⟨hfits, rfl, rfl, rfl⟩ := eq_of_finds hp hfinds
    have hend := hfits.extent_le
    have hpast := hfits.pastHeader
    refine ⟨hpast, .after a (p + 20 + (extentAt a p - 20)), Cursor.skip_after ?_⟩
    show p + 20 + (extentAt a p - 20) ≤ a.length
    omega
  advances := by
    intro file next hread
    replace hread : readEntry index (.after a p) = .ok (file, next) := hread
    rw [readEntry_after hp] at hread
    obtain ⟨u, hverdict, heq⟩ := Except.map_eq_ok.mp hread
    cases heq
    have hfits := verdict_eq_ok_iff.mp hverdict
    exact ⟨Nat.add_le_add_left hfits.pastHeader p, hfits.extent_le⟩

/-! ## Visits in a row -/

/-- The visits after the first are those from the place where its data
    ends, if the entry fits; otherwise there are none. -/
theorem visitsFrom_after (hp : p ≤ a.length) (count index : Nat) :
    (Fits a p ∧ visitsFrom (count + 1) index (.after a p)
      = ⟨index, .after a p⟩ :: visitsFrom count (index + 1) (.after a (p + extentAt a p))) ∨
    visitsFrom (count + 1) index (.after a p) = [⟨index, .after a p⟩] := by
  rw [visitsFrom, readEntry_after hp]
  cases hverdict : verdict a index p with
  | ok u => exact Or.inl ⟨verdict_eq_ok_iff.mp hverdict, rfl⟩
  | error e => exact Or.inr rfl

theorem safe_of_mem_visitsFrom {count index : Nat} (hp : p ≤ a.length) {v : Visit}
    (hv : v ∈ visitsFrom count index (.after a p)) : v.Safe a := by
  induction count generalizing index p with
  | zero => exact absurd hv List.not_mem_nil
  | succ count ih =>
      rcases visitsFrom_after hp count index with ⟨hfits, heq⟩ | heq
      · rw [heq] at hv
        rcases List.mem_cons.mp hv with rfl | hv
        · exact safe_after hp index
        · exact ih hfits.extent_le hv
      · rw [heq] at hv
        rw [List.mem_singleton.mp hv]
        exact safe_after hp index

/-- Of the visits only the last may have less than a header ahead. -/
theorem length_visitsFrom_le (count index : Nat) (hp : p ≤ a.length) :
    (visitsFrom count index (.after a p)).length ≤ (a.length - p) / 20 + 1 := by
  induction count generalizing index p with
  | zero => exact Nat.zero_le _
  | succ count ih =>
      rcases visitsFrom_after hp count index with ⟨hfits, heq⟩ | heq
      · have hrest := ih (index + 1) hfits.extent_le
        have hend := hfits.extent_le
        have hpast := hfits.pastHeader
        rw [heq, List.length_cons]
        omega
      · rw [heq, List.length_singleton]
        exact Nat.le_add_left 1 _

end Visits

/-! ## What an accepted archive gives -/

/-- The units of the stored name of the `i`-th entry that decoding keeps:
    those before the first zero. -/
def keptUnits (a : Bytes) (i : Nat) : List Nat :=
  (storedName a i).takeWhile (· ≠ 0)

/-- The entries in front of a place take up all the bytes from the header of
    the archive to there. -/
theorem entryStart_eq_sum (a : Bytes) (n : Nat) :
    entryStart a n = 8 + ((List.range n).map fun i => extentAt a (entryStart a i)).sum := by
  induction n with
  | zero => rfl
  | succ n ih =>
      rw [entryStart, List.range_succ, List.map_append, List.sum_append, List.map_singleton,
        List.sum_singleton, ← Nat.add_assoc, ← ih]

/-- They take at least a header each. -/
theorem le_entryStart_of_reached {a : Bytes} {n : Nat} (h : Reached a n) :
    8 + 20 * n ≤ entryStart a n := by
  induction n with
  | zero => exact Nat.le_refl 8
  | succ n ih =>
      have hbefore := ih fun i hi => h i (Nat.lt_succ_of_lt hi)
      have hlast := h n (Nat.lt_succ_self n)
      rw [entryStart]
      omega

/-- What is kept of a name takes two bytes a unit. -/
theorem length_keptUnits_le (a : Bytes) (i : Nat) :
    2 * (keptUnits a i).length ≤ nameSizeAt a (entryStart a i) := by
  have hstored : (storedName a i).length = nameSizeAt a (entryStart a i) / 2 := by
    rw [storedName, unitsAt, List.length_map, List.length_range]
  have hkept : (keptUnits a i).length ≤ (storedName a i).length :=
    (List.takeWhile_sublist _).length_le
  omega

/-- What an entry gives takes no more than its extent. -/
theorem size_le_extentAt {a : Bytes} {i : Nat} (h : Fits a (entryStart a i)) :
    max 20 (max (fileAt a (entryStart a i)).payload.length (2 * (keptUnits a i).length))
      ≤ extentAt a (entryStart a i) := by
  have hpast := h.pastHeader
  have hkept := length_keptUnits_le a i
  have hpayload : (fileAt a (entryStart a i)).payload.length = payloadSizeAt a (entryStart a i) :=
    length_part h.payload
  rw [hpayload]
  rw [extentAt] at hpast ⊢
  omega

/-- **Reading an archive is bounded by its length.**  What is shorter than
    the header of an archive is refused as truncated.  Of anything else,
    whatever it says, decoding reads one entry header more at the most than
    there are headers' worth of bytes, every read stays inside the archive,
    and no skip fails.  Once accepted, it holds as many files as it says,
    and they, their payloads and the kept units of their names are no more
    than fit in it side by side. -/
theorem decode_bounded (a : Bytes) :
    (a.length < 8 → ∃ cause, decode a = .error (.truncated cause)) ∧
    (8 ≤ a.length →
      decode a = ((visits a).mapM fun v => v.read.map Prod.fst) ∧
      (visits a).length ≤ (a.length - 8) / 20 + 1 ∧
      (∀ v ∈ visits a, v.Safe a) ∧
      ∀ files, decode a = .ok files →
        files.length = numberAt a 4 4 ∧
        files.length ≤ (a.length - 8) / 20 ∧
        (∀ i (h : i < files.length), files[i].name
          = expose (.ofList ((keptUnits a i).map fun unit => .ofNat (unit % 256)))) ∧
        (files.mapIdx fun i f =>
          max 20 (max f.payload.length (2 * (keptUnits a i).length))).sum ≤ a.length - 8) := by
  refine ⟨fun hshort => ⟨_, decode_of_short hshort⟩, ?_⟩
  intro hheader
  refine ⟨decode_eq_mapM_visits hheader, length_visitsFrom_le _ _ hheader,
    fun v hv => safe_of_mem_visitsFrom hheader hv, ?_⟩
  intro files h
  obtain ⟨-, hcount, hend, hall⟩ := fits_of_decode h
  have hreached : Reached a files.length := fun i hi => (hall i hi).1.pastHeader
  have hheaders := le_entryStart_of_reached hreached
  rw [entryStart_eq_sum] at hend hheaders
  have hsizes : (files.mapIdx fun i f =>
      max 20 (max f.payload.length (2 * (keptUnits a i).length))).sum
        ≤ ((List.range files.length).map fun i => extentAt a (entryStart a i)).sum := by
    refine List.Forall₂.sum_le_sum (List.forall₂_iff_get.mpr ⟨?_, ?_⟩)
    · rw [List.length_mapIdx, List.length_map, List.length_range]
    · intro i hi hi'
      rw [List.length_mapIdx] at hi
      obtain ⟨hfits, hfile⟩ := hall i hi
      simpa [hfile] using size_le_extentAt hfits
  refine ⟨hcount, by omega, ?_, by omega⟩
  intro i hi
  rw [(hall i hi).2]
  exact nameAt_eq_expose a _ _

/-- An archive of one empty file that says it has as many files as the
    bytes `low` and three times `high` tell. -/
def boasting (low high : UInt8) : Bytes :=
  [28, 0, 0, 0, low, high, high, high, 0, 0, 0, 0, 0, 0, 0, 0, 20, 0, 0, 0, 0, 0, 0, 0, 20, 0, 0, 0]

/-- When it says that there is one, it is accepted; when it says that there
    are more than can be, it is refused after two visits at the most. -/
theorem decode_bounded_boasting :
    (decode (boasting 1 0) = .ok [⟨"", []⟩] ∧
      (([⟨"", []⟩] : List ProvisionFile).mapIdx fun i f =>
        max 20 (max f.payload.length (2 * (keptUnits (boasting 1 0) i).length))).sum ≤ 20) ∧
    numberAt (boasting 0xff 0xff) 4 4 = 2 ^ 32 - 1 ∧ (visits (boasting 0xff 0xff)).length ≤ 2 ∧
    decode (boasting 0xff 0xff) = .error (.truncated (.underflow 28 4 0)) := by
  have haccepted : decode (boasting 1 0) = .ok [⟨"", []⟩] := by decide +kernel
  obtain ⟨-, -, -, hfiles⟩ := (decode_bounded (boasting 1 0)).2 (by decide)
  obtain ⟨-, hvisits, -⟩ := (decode_bounded (boasting 0xff 0xff)).2 (by decide)
  exact ⟨⟨haccepted, (hfiles _ haccepted).2.2.2⟩, by decide +kernel, hvisits, by decide +kernel⟩

end DiskKeys.Archive
