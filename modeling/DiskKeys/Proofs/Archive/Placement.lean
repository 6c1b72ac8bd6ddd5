import DiskKeys.Proofs.Archive.Format
import DiskKeys.Proofs.Archive.Layout
import DiskKeys.Proofs.Text.Utf16

/-! # Where encoding puts files

    What stands in an archive is described here by places, as it is for
    decoding.  The header of an entry says where the name and the payload
    of its file are, and they are there (`Stored`); the entries lie one
    after the other, each starting where the payload before it ends
    (`stored_archiveBytes`, `entryStart_archiveBytes`).

    Decoding narrows names, so it cannot tell all archives apart.  But what
    is stored at a place is one file only (`Stored.unique`), for the units
    of a name tell which one it is; and the places are the archive's own.
    So no two lists of files have the same archive (`encode_layout`). -/

namespace DiskKeys

/-- A written number that stands between other bytes. -/
theorem numberAt_append (width : Nat) {n : Nat} (hn : n < 256 ^ width) (front back : Bytes) :
    numberAt (front ++ (toLittleEndian width n ++ back)) width front.length = n := by
  have hpart := part_append_append front (toLittleEndian width n) back
  rw [length_toLittleEndian] at hpart
  rw [numberAt, hpart, littleEndian_toLittleEndian hn]

namespace Archive

/-- At `p` stands the entry of a file: its header says how large the name
    and the payload are and where they start, and they are there. -/
structure Stored (a : Bytes) (p : Nat) (f : ProvisionFile) : Prop where
  type : numberAt a 4 p = 0
  nameSize : nameSizeAt a p = 2 * (Text.Utf16.units f.name.toList).length
  nameOffset : nameOffsetAt a p = 20
  payloadSize : payloadSizeAt a p = f.payload.length
  payloadOffset : payloadOffsetAt a p = 20 + nameSizeAt a p
  name : part a (p + nameOffsetAt a p) (nameSizeAt a p) = nameBytes f.name
  payload : part a (p + payloadOffsetAt a p) (payloadSizeAt a p) = f.payload

namespace Stored

variable {a : Bytes} {p : Nat} {f f' : ProvisionFile}

/-- The data of the entry ends with the payload, where its size says. -/
theorem extentAt_eq (h : Stored a p f) :
    extentAt a p = payloadOffsetAt a p + payloadSizeAt a p ∧ extentAt a p = entrySize f := by
  have hlast : extentAt a p = payloadOffsetAt a p + payloadSizeAt a p := by
    rw [extentAt, h.nameOffset, h.payloadOffset]
    omega
  refine ⟨hlast, ?_⟩
  rw [hlast, h.payloadOffset, h.nameSize, h.payloadSize, entrySize, length_nameBytes]
  rfl

/-- A place tells which file is stored there. -/
theorem unique (h : Stored a p f) (h' : Stored a p f') : f = f' := by
  have hbytes : nameBytes f.name = nameBytes f'.name := h.name.symm.trans h'.name
  have hunits := congrArg unitsOf hbytes
  rw [nameBytes, nameBytes, unitsOf_unitBytes, unitsOf_unitBytes] at hunits
  have hname : f.name = f'.name := String.toList_inj.mp (Text.Utf16.units_inj hunits)
  have hpayload : f.payload = f'.payload := h.payload.symm.trans h'.payload
  obtain ⟨name, payload⟩ := f
  obtain ⟨name', payload'⟩ := f'
  cases hname
  cases hpayload
  rfl

end Stored

/-- An entry that is written between other bytes is stored there. -/
theorem stored_entryBytes {f : ProvisionFile} (hsize : entrySize f < UInt32.size)
    (front back : Bytes) : Stored (front ++ (entryBytes f ++ back)) front.length f := by
  have hlength := length_nameBytes f.name
  rw [entrySize, entryHeaderSize] at hsize
  -- each word of the header has the words before it in front
  have hword : ∀ (before after : Bytes) (n : Nat),
      headerBytes f = before ++ (toLittleEndian 4 n ++ after) → n < UInt32.size →
      numberAt (front ++ (entryBytes f ++ back)) 4 (front.length + before.length) = n := by
    intro before after n hheader hn
    have hnumber := numberAt_append 4 hn (front ++ before)
      (after ++ (nameBytes f.name ++ f.payload) ++ back)
    rw [List.length_append] at hnumber
    simpa only [entryBytes, hheader, List.append_assoc] using hnumber
  have htype : numberAt (front ++ (entryBytes f ++ back)) 4 front.length = 0 :=
    hword [] _ 0 rfl (by decide)
  have hnameSize : nameSizeAt (front ++ (entryBytes f ++ back)) front.length
      = (nameBytes f.name).length :=
    hword (toLittleEndian 4 0) _ _ rfl (by omega)
  have hnameOffset : nameOffsetAt (front ++ (entryBytes f ++ back)) front.length = 20 := by
    have h := hword (toLittleEndian 4 0 ++ toLittleEndian 4 (nameBytes f.name).length) _
      entryHeaderSize (by rw [headerBytes, List.append_assoc]) (by decide)
    rwa [List.length_append, length_toLittleEndian, length_toLittleEndian] at h
  have hpayloadSize : payloadSizeAt (front ++ (entryBytes f ++ back)) front.length
      = f.payload.length := by
    have h := hword (toLittleEndian 4 0 ++ (toLittleEndian 4 (nameBytes f.name).length
      ++ toLittleEndian 4 entryHeaderSize)) _ f.payload.length
      (by rw [headerBytes, List.append_assoc, List.append_assoc]) (by omega)
    rwa [List.length_append, List.length_append, length_toLittleEndian, length_toLittleEndian,
      length_toLittleEndian] at h
  have hpayloadOffset : payloadOffsetAt (front ++ (entryBytes f ++ back)) front.length
      = 20 + (nameBytes f.name).length := by
    have h := hword (toLittleEndian 4 0 ++ (toLittleEndian 4 (nameBytes f.name).length
      ++ (toLittleEndian 4 entryHeaderSize ++ toLittleEndian 4 f.payload.length))) []
      (entryHeaderSize + (nameBytes f.name).length)
      (by simp only [headerBytes, List.append_assoc, List.append_nil])
      (by rw [entryHeaderSize]; omega)
    rwa [List.length_append, List.length_append, List.length_append, length_toLittleEndian,
      length_toLittleEndian, length_toLittleEndian, length_toLittleEndian] at h
  have hname := part_append_append (front ++ headerBytes f) (nameBytes f.name)
    (f.payload ++ back)
  have hpayload := part_append_append (front ++ (headerBytes f ++ nameBytes f.name)) f.payload back
  simp only [List.length_append, length_headerBytes, entryHeaderSize] at hname hpayload
  refine ⟨htype, ?_, hnameOffset, hpayloadSize, ?_, ?_, ?_⟩
  · rw [hnameSize, hlength]
  · rw [hpayloadOffset, hnameSize]
  · rw [hnameOffset, hnameSize]
    simpa only [entryBytes, List.append_assoc] using hname
  · rw [hpayloadOffset, hpayloadSize]
    simpa only [entryBytes, List.append_assoc] using hpayload

/-! ## The entries of an archive -/

section Entries

variable {files : List ProvisionFile} {i : Nat}

/-- The entry of a file stands where those of the files before it end. -/
theorem stored_archiveBytes (hsize : totalSize files < UInt32.size) (hi : i < files.length) :
    Stored (archiveBytes files) (totalSize (files.take i)) files[i] := by
  have hsplit : files = files.take i ++ files[i] :: files.drop (i + 1) := by
    rw [← List.drop_eq_getElem_cons hi, List.take_append_drop]
  let front := toLittleEndian 4 (totalSize files) ++ (toLittleEndian 4 files.length
    ++ (files.take i).flatMap entryBytes)
  have harchive : archiveBytes files
      = front ++ (entryBytes files[i] ++ (files.drop (i + 1)).flatMap entryBytes) := by
    have hentries := congrArg (List.flatMap entryBytes) hsplit
    rw [List.flatMap_append, List.flatMap_cons] at hentries
    rw [archiveBytes, hentries]
    simp only [front, List.append_assoc]
  have hfront : front.length = totalSize (files.take i) := by
    have hlength := length_archiveBytes (files.take i)
    simp only [archiveBytes, List.length_append, length_toLittleEndian] at hlength
    simpa only [front, List.length_append, length_toLittleEndian] using hlength
  rw [harchive, ← hfront]
  exact stored_entryBytes
    (Nat.lt_of_le_of_lt (entrySize_le_of_mem (List.getElem_mem hi)) hsize) front _

theorem totalSize_take_succ (hi : i < files.length) :
    totalSize (files.take (i + 1)) = totalSize (files.take i) + entrySize files[i] := by
  rw [List.take_succ_eq_append_getElem hi, totalSize, List.foldl_append]
  rfl

/-- The `i`-th entry starts behind as many bytes as the files before it
    take. -/
theorem entryStart_archiveBytes (hsize : totalSize files < UInt32.size) (hi : i ≤ files.length) :
    entryStart (archiveBytes files) i = totalSize (files.take i) := by
  induction i with
  | zero => rfl
  | succ i ih =>
      rw [entryStart, ih (Nat.le_of_succ_le hi), (stored_archiveBytes hsize hi).extentAt_eq.2,
        totalSize_take_succ hi]

/-- The last entry ends with the archive. -/
theorem entryStart_length_archiveBytes (hsize : totalSize files < UInt32.size) :
    entryStart (archiveBytes files) files.length = (archiveBytes files).length := by
  rw [entryStart_archiveBytes hsize (Nat.le_refl _), List.take_length, length_archiveBytes]

/-- The header of an archive says how long it is and how many files it
    holds. -/
theorem header_archiveBytes (hsize : totalSize files < UInt32.size) :
    numberAt (archiveBytes files) 4 0 = totalSize files ∧
    numberAt (archiveBytes files) 4 4 = files.length := by
  have hcount : files.length < UInt32.size :=
    Nat.lt_of_le_of_lt (length_le_totalSize files) hsize
  have hsecond := numberAt_append 4 hcount (toLittleEndian 4 (totalSize files))
    (files.flatMap entryBytes)
  rw [length_toLittleEndian] at hsecond
  exact ⟨numberAt_append 4 hsize [] _, hsecond⟩

end Entries

/-- Files that have the same archive are the same. -/
theorem archiveBytes_inj {files files' : List ProvisionFile}
    (hsize : totalSize files < UInt32.size) (hsize' : totalSize files' < UInt32.size)
    (h : archiveBytes files = archiveBytes files') : files = files' := by
  have hcount : files.length = files'.length := by
    rw [← (header_archiveBytes hsize).2, h, (header_archiveBytes hsize').2]
  refine List.ext_getElem hcount ?_
  intro i hi hi'
  -- the place of the entry can be read off the archive, which is the same
  have hstored := stored_archiveBytes hsize hi
  have hstored' := stored_archiveBytes hsize' hi'
  rw [← entryStart_archiveBytes hsize (Nat.le_of_lt hi)] at hstored
  rw [← entryStart_archiveBytes hsize' (Nat.le_of_lt hi'), ← h] at hstored'
  exact hstored.unique hstored'

/-- The first file whose name has a NUL, if there is one. -/
theorem exists_first_nul {files : List ProvisionFile} (h : ∃ f ∈ files, '\x00' ∈ f.name.toList) :
    ∃ before f after, files = before ++ f :: after ∧
      (∀ g ∈ before, '\x00' ∉ g.name.toList) ∧ '\x00' ∈ f.name.toList ∧
      encode files = .error (.nulInName f.name) := by
  obtain ⟨f, hfind⟩ : ∃ f, files.find? (·.name.toList.contains '\x00') = some f := by
    obtain ⟨f, hf, hnul⟩ := h
    rw [← Option.isSome_iff_exists, List.find?_isSome]
    exact ⟨f, hf, by simpa using hnul⟩
  obtain ⟨hnul, before, after, hsplit, hbefore⟩ := List.find?_eq_some_iff_append.mp hfind
  refine ⟨before, f, after, hsplit, ?_, by simpa using hnul, ?_⟩
  · intro g hg
    simpa using hbefore g hg
  · rw [encode, hfind]
    rfl

/-- **The layout of archives.**  Files are refused for the first name with
    a NUL among theirs.  If there is none and the canonical layout fits in
    thirty-two bits, they are encoded in just this layout: the header says
    how long the archive is and how many files there are, the first entry
    starts behind it, each later one where the payload of the one before
    ends, and with the last payload the archive ends.  Other files never
    give the same archive. -/
theorem encode_layout (files : List ProvisionFile) :
    ((∃ f ∈ files, '\x00' ∈ f.name.toList) → ∃ before f after, files = before ++ f :: after ∧
      (∀ g ∈ before, '\x00' ∉ g.name.toList) ∧ '\x00' ∈ f.name.toList ∧
      encode files = .error (.nulInName f.name)) ∧
    ((∀ f ∈ files, '\x00' ∉ f.name.toList) → canonicalSize files ≤ 2 ^ 32 - 1 →
      ∃ archive, encode files = .ok archive ∧ archive.length = canonicalSize files ∧
        numberAt archive 4 0 = canonicalSize files ∧ numberAt archive 4 4 = files.length ∧
        ∃ p : Nat → Nat, p 0 = 8 ∧ p files.length = archive.length ∧
          ∀ i (h : i < files.length), Stored archive (p i) files[i] ∧
            p (i + 1) = p i + (payloadOffsetAt archive (p i) + payloadSizeAt archive (p i))) ∧
    ∀ files' archive, encode files = .ok archive → encode files' = .ok archive →
      files = files' := by
  refine ⟨exists_first_nul, ?_, ?_⟩
  · intro hnul hcanonical
    have hsize : totalSize files < UInt32.size := by
      rw [totalSize_eq_canonicalSize]
      exact Nat.lt_of_le_of_lt hcanonical (by decide)
    obtain ⟨htotal, hcount⟩ := header_archiveBytes hsize
    rw [← totalSize_eq_canonicalSize]
    refine ⟨archiveBytes files, encode_eq_ok hnul hsize, length_archiveBytes files, htotal, hcount,
      entryStart (archiveBytes files), rfl, entryStart_length_archiveBytes hsize, ?_⟩
    intro i hi
    have hstored := stored_archiveBytes hsize hi
    rw [← entryStart_archiveBytes hsize (Nat.le_of_lt hi)] at hstored
    refine ⟨hstored, ?_⟩
    rw [← hstored.extentAt_eq.1]
    rfl
  · intro files' archive h h'
    obtain ⟨-, hsize, rfl⟩ := encode_eq_ok_iff.mp h
    obtain ⟨-, hsize', harchive⟩ := encode_eq_ok_iff.mp h'
    exact archiveBytes_inj hsize hsize' harchive

/-- Names that decode alike are still stored apart. -/
theorem encode_layout_lookalikes : ∃ archive archive',
    encode [⟨"A", [7]⟩] = .ok archive ∧ encode [⟨"\u0141", [7]⟩] = .ok archive' ∧
    archive ≠ archive' ∧ decode archive = decode archive' := by
  obtain ⟨archive, hencode, -⟩ :=
    (encode_layout [⟨"A", [7]⟩]).2.1 (by decide +kernel) (by decide +kernel)
  obtain ⟨archive', hencode', -⟩ :=
    (encode_layout [⟨"\u0141", [7]⟩]).2.1 (by decide +kernel) (by decide +kernel)
  refine ⟨archive, archive', hencode, hencode', ?_, ?_⟩
  · rintro rfl
    exact absurd ((encode_layout _).2.2 _ _ hencode hencode') (by decide)
  · have hbytes : archive = archiveBytes [⟨"A", [7]⟩] := (encode_eq_ok_iff.mp hencode).2.2
    have hbytes' : archive' = archiveBytes [⟨"\u0141", [7]⟩] := (encode_eq_ok_iff.mp hencode').2.2
    rw [hbytes, hbytes']
    decide +kernel

end Archive

end DiskKeys
