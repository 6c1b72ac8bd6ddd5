import DiskKeys.Proofs.Archive.Format

/-! # What decoding an archive does not go by

    The verdict on an entry goes by its header without the type, and an
    entry starts where the numbers of those before it say.  So the type
    fields lie apart from all that decides how decoding goes on
    (`Reached.not_inTypeField`): archives that differ in them and in their
    total length fare alike, entry by entry (`readEntries_congr`).

    Yet decoding lets a name or payload start inside the header of its own
    entry, as long as the data ends behind it; then the type is read as
    what it is not.  That is all it can do (`decode_by_format`), but it can
    (`type_read_as_name`). -/

namespace DiskKeys.Archive

/-- The entries before the `i`-th end past their headers, so that they all
    lie in front of it. -/
def Reached (a : Bytes) (i : Nat) : Prop :=
  ∀ j, j < i → 20 ≤ extentAt a (entryStart a j)

/-- A place is in the type field of an entry. -/
def InTypeField (a : Bytes) (k : Nat) : Prop :=
  ∃ i, Reached a i ∧ entryStart a i ≤ k ∧ k < entryStart a i + 4

/-- The rest of the header of an entry and its data are clear of all type
    fields. -/
theorem Reached.not_inTypeField {a : Bytes} {i k : Nat} (h : Reached a i)
    (hlow : entryStart a i + 4 ≤ k)
    (hhigh : k < entryStart a i + 20 ∨ k < entryStart a i + extentAt a (entryStart a i)) :
    ¬ InTypeField a k := by
  rintro ⟨j, hj, hfrom, hto⟩
  rcases Nat.lt_trichotomy i j with hlt | rfl | hgt
  · -- the field of a later entry is behind the data of this one
    have hend := extent_le_entryStart a hlt
    have hpast := hj i hlt
    omega
  · omega
  · -- that of an earlier one is in front of it
    have hend := extent_le_entryStart a hgt
    have hpast := h j hgt
    omega

/-- Where bytes agree from some place of a part on, so does the rest of it. -/
theorem drop_part_congr {a b : Bytes} {start size skip : Nat}
    (h : ∀ k, start + skip ≤ k → k < start + size → b[k]? = a[k]?) :
    (part b start size).drop skip = (part a start size).drop skip := by
  apply List.ext_getElem?
  intro k
  rw [List.getElem?_drop, List.getElem?_drop, getElem?_part, getElem?_part]
  by_cases hk : skip + k < size
  · rw [if_pos hk, if_pos hk]
    exact h _ (by omega) (by omega)
  · rw [if_neg hk, if_neg hk]

/-- So do the units in it. -/
theorem drop_unitsAt_congr {a b : Bytes} {start size skip : Nat}
    (h : ∀ k, start + 2 * skip ≤ k → k < start + size → b[k]? = a[k]?) :
    (unitsAt b start size).drop skip = (unitsAt a start size).drop skip := by
  apply List.ext_getElem?
  intro j
  rw [unitsAt, unitsAt, List.getElem?_drop, List.getElem?_drop, List.getElem?_map,
    List.getElem?_map]
  by_cases hj : skip + j < size / 2
  · rw [List.getElem?_range hj]
    exact congrArg some (numberAt_congr fun k hfrom hto => h k (by omega) (by omega))
  · rw [List.getElem?_eq_none (by simpa using hj)]
    rfl

section Agreement

/-! Archives `a` and `b` that agree but for their total length and the types
    of their entries. -/

variable {a b : Bytes} (hlength : b.length = a.length)
  (hagree : ∀ k, 4 ≤ k → ¬ InTypeField a k → b[k]? = a[k]?)

include hagree in
theorem count_congr : numberAt b 4 4 = numberAt a 4 4 := by
  refine numberAt_congr fun k hlow hhigh => ?_
  refine hagree k hlow ?_
  -- the count is in front of all entries
  rintro ⟨i, -, hfrom, -⟩
  have hstart := le_entryStart a i
  omega

include hagree in
/-- They agree on the header of an entry. -/
theorem sameHeader_of_reached {i : Nat} (hi : Reached a i) :
    ∀ k, entryStart a i + 4 ≤ k → k < entryStart a i + 20 → b[k]? = a[k]? :=
  fun k hfrom hto => hagree k (by omega) (hi.not_inTypeField hfrom (Or.inl hto))

include hagree in
theorem entryStart_congr {i : Nat} (hi : Reached a i) : entryStart b i = entryStart a i := by
  induction i with
  | zero => rfl
  | succ i ih =>
      have hbefore : Reached a i := fun j hj => hi j (Nat.lt_succ_of_lt hj)
      rw [entryStart, entryStart, ih hbefore,
        extentAt_congr (sameHeader_of_reached hagree hbefore)]

include hlength hagree in
theorem verdict_congr {i : Nat} (hi : Reached a i) (index : Nat) :
    verdict b index (entryStart a i) = verdict a index (entryStart a i) := by
  rw [verdict, verdict, headerAt_congr (sameHeader_of_reached hagree hi), hlength]

include hlength hagree in
/-- They fare alike at entries in a row. -/
theorem readEntries_congr (count : Nat) {i : Nat} (hi : Reached a i)
    (hstart : entryStart a i ≤ a.length) :
    (readEntries count i (.after b (entryStart a i))).map List.length
      = (readEntries count i (.after a (entryStart a i))).map List.length := by
  induction count generalizing i with
  | zero => rfl
  | succ count ih =>
      have hsame := verdict_congr hlength hagree hi i
      cases hverdict : verdict a i (entryStart a i) with
      | error e =>
          rw [hverdict] at hsame
          rw [readEntries_of_verdict (by omega) hsame, readEntries_of_verdict hstart hverdict]
      | ok u =>
          -- an entry that fits ends past its header, so the next one is reached
          have hfits := verdict_eq_ok_iff.mp hverdict
          have hfits' := verdict_eq_ok_iff.mp (hsame.trans hverdict)
          have hnext : Reached a (i + 1) := by
            intro j hj
            by_cases hji : j = i
            · rw [hji]
              exact hfits.pastHeader
            · exact hi j (by omega)
          have hrest := ih hnext hfits.extent_le
          have hcons : ∀ (f : ProvisionFile) (x : Except ArchiveError (List ProvisionFile)),
              (x.map (f :: ·)).map List.length = (x.map List.length).map (· + 1) := by
            intro f x
            cases x <;> rfl
          rw [readEntries_of_fits hfits', readEntries_of_fits hfits, hcons, hcons,
            extentAt_congr (sameHeader_of_reached hagree hi)]
          exact congrArg (Except.map (· + 1)) hrest

include hagree in
/-- They hold the same name where it does not start in a type field. -/
theorem name_fileAt_congr {i : Nat} (hi : Reached a i)
    (hclear : nameSizeAt a (entryStart a i) = 0 ∨ 4 ≤ nameOffsetAt a (entryStart a i)) :
    (fileAt b (entryStart a i)).name = (fileAt a (entryStart a i)).name := by
  obtain ⟨hnameSize, hnameOffset, -, -⟩ := header_congr (sameHeader_of_reached hagree hi)
  have hunits : unitsAt b (entryStart a i + nameOffsetAt a (entryStart a i))
      (nameSizeAt a (entryStart a i))
      = unitsAt a (entryStart a i + nameOffsetAt a (entryStart a i))
        (nameSizeAt a (entryStart a i)) := by
    refine unitsAt_congr fun k hfrom hto => ?_
    refine hagree k (by omega) (hi.not_inTypeField (by omega) (Or.inr ?_))
    rw [extentAt]
    omega
  simp only [fileAt, nameAt, hnameSize, hnameOffset, hunits]

include hagree in
/-- They hold the same payload where it does not start in a type field. -/
theorem payload_fileAt_congr {i : Nat} (hi : Reached a i)
    (hclear : payloadSizeAt a (entryStart a i) = 0 ∨ 4 ≤ payloadOffsetAt a (entryStart a i)) :
    (fileAt b (entryStart a i)).payload = (fileAt a (entryStart a i)).payload := by
  obtain ⟨-, -, hpayloadSize, hpayloadOffset⟩ := header_congr (sameHeader_of_reached hagree hi)
  simp only [fileAt, hpayloadSize, hpayloadOffset]
  refine part_congr fun k hfrom hto => ?_
  refine hagree k (by omega) (hi.not_inTypeField (by omega) (Or.inr ?_))
  rw [extentAt]
  omega

end Agreement

/-- Files that two archives hold in entries at the same place, the same but
    for what lies on the type field of the entry. -/
structure SameOffType (a b : Bytes) (p : Nat) (f f' : ProvisionFile) : Prop where
  /-- Names that do not start in the field are the same. -/
  name : nameSizeAt a p = 0 ∨ 4 ≤ nameOffsetAt a p → f'.name = f.name
  payload : payloadSizeAt a p = 0 ∨ 4 ≤ payloadOffsetAt a p → f'.payload = f.payload
  /-- Of names that do, the units behind the field are. -/
  restOfName : (unitsAt b (p + nameOffsetAt b p) (nameSizeAt b p)).drop ((5 - nameOffsetAt a p) / 2)
    = (unitsAt a (p + nameOffsetAt a p) (nameSizeAt a p)).drop ((5 - nameOffsetAt a p) / 2)
  restOfPayload :
    f'.payload.drop (4 - payloadOffsetAt a p) = f.payload.drop (4 - payloadOffsetAt a p)

section Agreement

variable {a b : Bytes} (hagree : ∀ k, 4 ≤ k → ¬ InTypeField a k → b[k]? = a[k]?)

include hagree

theorem sameOffType_fileAt {i : Nat} (hi : Reached a i) :
    SameOffType a b (entryStart a i) (fileAt a (entryStart a i)) (fileAt b (entryStart a i)) := by
  obtain ⟨hnameSize, hnameOffset, hpayloadSize, hpayloadOffset⟩ :=
    header_congr (sameHeader_of_reached hagree hi)
  refine ⟨name_fileAt_congr hagree hi, payload_fileAt_congr hagree hi, ?_, ?_⟩
  · rw [hnameSize, hnameOffset]
    refine drop_unitsAt_congr fun k hfrom hto => ?_
    refine hagree k (by omega) (hi.not_inTypeField (by omega) (Or.inr ?_))
    rw [extentAt]
    omega
  · simp only [fileAt, hpayloadSize, hpayloadOffset]
    refine drop_part_congr fun k hfrom hto => ?_
    refine hagree k (by omega) (hi.not_inTypeField (by omega) (Or.inr ?_))
    rw [extentAt]
    omega

end Agreement

/-- The places of the files in an archive that is accepted. -/
theorem fileAt_of_decode {a : Bytes} {files : List ProvisionFile} (h : decode a = .ok files)
    {i : Nat} (hi : i < files.length) :
    Reached a i ∧ files[i] = fileAt a (entryStart a i) := by
  obtain ⟨-, -, -, hall⟩ := fits_of_decode h
  exact ⟨fun j hj => (hall j (Nat.lt_trans hj hi)).1.pastHeader, (hall i hi).2⟩

/-- Archives that agree behind their total length decode alike. -/
theorem decode_congr_of_drop {a b : Bytes} (hlength : b.length = a.length)
    (hdrop : b.drop 4 = a.drop 4) : decode b = decode a := by
  by_cases h : 8 ≤ a.length
  · have hafter : Cursor.after b 8 = Cursor.after a 8 := by
      rw [Cursor.after, Cursor.after, show 8 = 4 + 4 from rfl, ← List.drop_drop, ← List.drop_drop,
        hdrop]
    rw [decode_of_header h, decode_of_header (by omega), numberAt, numberAt, part, part, hdrop]
    exact congrArg _ hafter
  · rw [decode_of_short (by omega), decode_of_short (Nat.lt_of_not_le h), hlength]

/-- Archives that agree but for their total length and the types of their
    entries are refused for the same reason, or give as many files. -/
theorem length_decode_congr {a b : Bytes} (hlength : b.length = a.length)
    (hagree : ∀ k, 4 ≤ k → ¬ InTypeField a k → b[k]? = a[k]?) :
    (decode b).map List.length = (decode a).map List.length := by
  by_cases h : 8 ≤ a.length
  · have hentries := readEntries_congr hlength hagree (i := 0) (numberAt a 4 4) nofun h
    rw [decode_of_header h, decode_of_header (by omega), count_congr hagree]
    exact hentries
  · rw [decode_of_short (by omega), decode_of_short (Nat.lt_of_not_le h), hlength]

/-- **Decoding goes by the format.**  Bytes are accepted with certain files
    exactly when they conform to the format with these.  The total length
    never matters.  The types of the entries do not matter for whether
    bytes are accepted, for the error if they are not, or for the number of
    files and the places of their entries; they show in the names and
    payloads that start in the type field of their own entry, and there
    only where these lie on it. -/
theorem decode_by_format (a : Bytes) :
    (∀ files, decode a = .ok files ↔ Conforms a files) ∧
    (∀ b, b.length = a.length → b.drop 4 = a.drop 4 → decode b = decode a) ∧
    (∀ b, b.length = a.length → (∀ k, 4 ≤ k → ¬ InTypeField a k → b[k]? = a[k]?) →
      (decode b).map List.length = (decode a).map List.length ∧
      (∀ i, Reached a i → entryStart b i = entryStart a i) ∧
      ∀ files files', decode a = .ok files → decode b = .ok files' →
        ∀ i (h : i < files.length) (h' : i < files'.length),
          Reached a i ∧ SameOffType a b (entryStart a i) files[i] files'[i]) := by
  refine ⟨fun files => decode_eq_ok_iff, fun b => decode_congr_of_drop, ?_⟩
  intro b hlength hagree
  refine ⟨length_decode_congr hlength hagree, fun i => entryStart_congr hagree, ?_⟩
  intro files files' ha hb i h h'
  obtain ⟨hreached, hfile⟩ := fileAt_of_decode ha h
  obtain ⟨-, hfile'⟩ := fileAt_of_decode hb h'
  rw [hfile, hfile', entryStart_congr hagree hreached]
  exact ⟨hreached, sameOffType_fileAt hagree hreached⟩

/-- An archive of one empty file; its name, two units long, lies on the type
    field of its own entry. -/
def selfNamed (low high : UInt8) : Bytes :=
  [28, 0, 0, 0, 1, 0, 0, 0, low, 0, high, 0, 4, 0, 0, 0, 0, 0, 0, 0, 0, 0, 0, 0, 20, 0, 0, 0]

/-- Two such archives differ in the type field and nowhere else. -/
theorem selfNamed_congr {k : Nat} (hclear : ¬ InTypeField (selfNamed 0 0) k) :
    (selfNamed 0x42 0x42)[k]? = (selfNamed 0 0)[k]? := by
  have houtside : ¬ (8 ≤ k ∧ k < 12) := fun hfield => hclear ⟨0, nofun, hfield.1, hfield.2⟩
  have hbytes : ∀ k, k < 28 → ¬ (8 ≤ k ∧ k < 12) →
      (selfNamed 0x42 0x42)[k]? = (selfNamed 0 0)[k]? := by decide
  by_cases hk : k < 28
  · exact hbytes k hk houtside
  · rw [List.getElem?_eq_none (Nat.le_of_not_lt hk), List.getElem?_eq_none (Nat.le_of_not_lt hk)]

/-- The two are accepted with one file each, in an entry at the same place;
    but not with the same name, for it lies on the type field. -/
theorem decode_by_format_selfNamed :
    decode (selfNamed 0 0) = .ok [⟨"", []⟩] ∧ decode (selfNamed 0x42 0x42) = .ok [⟨"BB", []⟩] ∧
    (decode (selfNamed 0x42 0x42)).map List.length = (decode (selfNamed 0 0)).map List.length ∧
    SameOffType (selfNamed 0 0) (selfNamed 0x42 0x42) 8 ⟨"", []⟩ ⟨"BB", []⟩ ∧
    entryStart (selfNamed 0x42 0x42) 1 = entryStart (selfNamed 0 0) 1 := by
  have hblank : decode (selfNamed 0 0) = .ok [⟨"", []⟩] := by decide +kernel
  have hnamed : decode (selfNamed 0x42 0x42) = .ok [⟨"BB", []⟩] := by decide +kernel
  obtain ⟨-, -, htypes⟩ := decode_by_format (selfNamed 0 0)
  obtain ⟨hcount, hplaces, hfiles⟩ :=
    htypes (selfNamed 0x42 0x42) rfl fun _ _ hclear => selfNamed_congr hclear
  have hreached : Reached (selfNamed 0 0) 1 := by
    intro j hj
    obtain rfl : j = 0 := by omega
    decide +kernel
  exact ⟨hblank, hnamed, hcount, (hfiles _ _ hblank hnamed 0 (by decide) (by decide)).2,
    hplaces 1 hreached⟩

/-- The type of an entry can be read as its name: archives that differ in
    the type field of an entry and nowhere else need not decode alike. -/
theorem type_read_as_name : ¬ ∀ a b : Bytes, b.length = a.length →
    (∀ k, 4 ≤ k → ¬ InTypeField a k → b[k]? = a[k]?) → decode b = decode a := by
  intro hall
  have hsame := hall (selfNamed 0 0) (selfNamed 0x42 0x42) rfl
    fun _ _ hclear => selfNamed_congr hclear
  have hblank : decode (selfNamed 0 0) = .ok [⟨"", []⟩] := by decide +kernel
  have hnamed : decode (selfNamed 0x42 0x42) = .ok [⟨"BB", []⟩] := by decide +kernel
  rw [hblank, hnamed] at hsame
  exact absurd hsame (by decide)

end DiskKeys.Archive
