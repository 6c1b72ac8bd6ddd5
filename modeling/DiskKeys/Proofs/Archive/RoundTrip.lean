import DiskKeys.Proofs.Archive.Layout
import DiskKeys.Proofs.Bytes.Cursor

/-! # Decoding what was encoded

    The reader's cursor and the writer's layout stay in step: an entry in
    front of the cursor is read as the file that was written, but for its
    name, and leaves the cursor in front of the next one
    (`readEntry_entryBytes`).  So decoding an encoded archive gives the
    files with their names narrowed and exposed, and the very same files
    exactly when no name changes on the way (`decode_encode`). -/

namespace DiskKeys.Archive

/-- A file as it comes back from an archive. -/
def returned (f : ProvisionFile) : ProvisionFile :=
  ⟨expose (narrowed f.name), f.payload⟩

/-- The header that an entry is written with. -/
def writtenHeader (f : ProvisionFile) : EntryHeader where
  nameSize := .ofNat (nameBytes f.name).length
  nameOffset := .ofNat entryHeaderSize
  payloadSize := .ofNat f.payload.length
  payloadOffset := .ofNat (entryHeaderSize + (nameBytes f.name).length)

/-- Where the name of an entry is written. -/
def writtenName (f : ProvisionFile) : Span :=
  ⟨entryHeaderSize, entryHeaderSize + (nameBytes f.name).length⟩

/-- Where the payload of an entry is written. -/
def writtenPayload (f : ProvisionFile) : Span :=
  ⟨entryHeaderSize + (nameBytes f.name).length, entrySize f⟩

/-! ## One entry -/

/-- Four bytes and five words make up a header, whatever they say. -/
theorem read_words (position : Nat) (type : UInt32) (h : EntryHeader) (rest : Bytes) :
    EntryHeader.read (.ahead position (toLittleEndian 4 type.toNat
      ++ (toLittleEndian 4 h.nameSize.toNat ++ (toLittleEndian 4 h.nameOffset.toNat
      ++ (toLittleEndian 4 h.payloadSize.toNat ++ (toLittleEndian 4 h.payloadOffset.toNat
      ++ rest))))))
      = .ok (h, .ahead (position + entryHeaderSize) rest) := by
  simp only [EntryHeader.read, Cursor.readU32_append, Except.ok_bind, Except.pure_eq_ok,
    entryHeaderSize]

/-- The sizes of an entry that fits are themselves as words. -/
theorem toNat_ofNat_of_le_entrySize {f : ProvisionFile} (hsize : entrySize f < UInt32.size)
    {n : Nat} (hn : n ≤ entrySize f) : (UInt32.ofNat n).toNat = n :=
  UInt32.toNat_ofNat_of_lt' (Nat.lt_of_le_of_lt hn hsize)

/-- A written header is read back. -/
theorem read_headerBytes {f : ProvisionFile} (hsize : entrySize f < UInt32.size)
    (position : Nat) (rest : Bytes) :
    EntryHeader.read (.ahead position (headerBytes f ++ rest))
      = .ok (writtenHeader f, .ahead (position + entryHeaderSize) rest) := by
  have hread := read_words position 0 (writtenHeader f) rest
  have hword := fun n => toNat_ofNat_of_le_entrySize hsize (n := n)
  rw [entrySize] at hword
  have hname : (writtenHeader f).nameSize.toNat = (nameBytes f.name).length :=
    hword _ (by omega)
  have hnameOffset : (writtenHeader f).nameOffset.toNat = entryHeaderSize :=
    hword _ (by omega)
  have hpayload : (writtenHeader f).payloadSize.toNat = f.payload.length :=
    hword _ (by omega)
  have hpayloadOffset : (writtenHeader f).payloadOffset.toNat
      = entryHeaderSize + (nameBytes f.name).length := hword _ (by omega)
  rw [hname, hnameOffset, hpayload, hpayloadOffset] at hread
  simpa only [headerBytes, List.append_assoc, UInt32.toNat_zero] using hread

theorem within_eq_ok {offset len limit : Nat} (h : offset + len ≤ limit) :
    Span.within offset len limit = .ok ⟨offset, offset + len⟩ := if_pos h

/-- The parts of an entry are found where they were written. -/
theorem spans_writtenHeader {f : ProvisionFile} (hsize : entrySize f < UInt32.size)
    (index : Nat) {limit : Nat} (hlimit : entrySize f ≤ limit) :
    (writtenHeader f).spans index limit = .ok (writtenName f, writtenPayload f) := by
  have hword := fun n => toNat_ofNat_of_le_entrySize hsize (n := n)
  have heven : (nameBytes f.name).length % 2 = 0 := by
    rw [length_nameBytes]
    omega
  rw [entrySize] at hword hlimit
  have hextent : ¬ max (entryHeaderSize + (nameBytes f.name).length)
      (entryHeaderSize + (nameBytes f.name).length + f.payload.length) < entryHeaderSize := by
    omega
  simp only [EntryHeader.spans, writtenHeader, writtenName, writtenPayload, entrySize,
    hword (nameBytes f.name).length (by omega), hword entryHeaderSize (by omega),
    hword f.payload.length (by omega), hword (entryHeaderSize + (nameBytes f.name).length) (by omega),
    heven, within_eq_ok (show entryHeaderSize + (nameBytes f.name).length ≤ limit by omega),
    within_eq_ok hlimit, Except.mapError_ok, Except.ok_bind, Except.pure_eq_ok, ne_eq, not_true,
    if_false, hextent]

theorem slice_writtenName (f : ProvisionFile) (rest : Bytes) :
    (writtenName f).slice (entryBytes f ++ rest) = nameBytes f.name := by
  simp only [Span.slice, writtenName, entryBytes, List.append_assoc]
  rw [List.drop_left' (length_headerBytes f), Nat.add_sub_cancel_left, List.take_left]

theorem slice_writtenPayload (f : ProvisionFile) (rest : Bytes) :
    (writtenPayload f).slice (entryBytes f ++ rest) = f.payload := by
  have hfront : (headerBytes f ++ nameBytes f.name).length
      = entryHeaderSize + (nameBytes f.name).length := by
    rw [List.length_append, length_headerBytes]
  rw [Span.slice, writtenPayload, entryBytes, ← List.append_assoc, List.append_assoc,
    List.drop_left' hfront, entrySize, Nat.add_sub_cancel_left, List.take_left]

/-- An entry in front of the cursor is read and passed. -/
theorem readEntry_entryBytes {f : ProvisionFile} (hnul : '\x00' ∉ f.name.toList)
    (hsize : entrySize f < UInt32.size) (index position : Nat) (rest : Bytes) :
    readEntry index (.ahead position (entryBytes f ++ rest))
      = .ok (returned f, .ahead (position + entrySize f) rest) := by
  have hread : EntryHeader.read (.ahead position (entryBytes f ++ rest))
      = .ok (writtenHeader f, .ahead (position + entryHeaderSize)
          (nameBytes f.name ++ f.payload ++ rest)) := by
    rw [entryBytes, List.append_assoc]
    exact read_headerBytes hsize position _
  have hspans : (writtenHeader f).spans index (entryBytes f ++ rest).length
      = .ok (writtenName f, writtenPayload f) := by
    refine spans_writtenHeader hsize index ?_
    rw [List.length_append, length_entryBytes]
    exact Nat.le_add_right _ _
  -- the next entry begins where the farther of name and payload ends: where this one does
  have hdata : (nameBytes f.name ++ f.payload).length
      = max (writtenName f).stop (writtenPayload f).stop - entryHeaderSize := by
    rw [List.length_append]
    simp only [writtenName, writtenPayload, entrySize]
    omega
  have hend : position + entryHeaderSize
      + (max (writtenName f).stop (writtenPayload f).stop - entryHeaderSize)
      = position + entrySize f := by
    rw [← hdata, List.length_append, entrySize]
    omega
  simp only [readEntry, hread, Cursor.remaining_ahead, hspans, Except.mapError_ok, Except.ok_bind,
    Except.pure_eq_ok, Cursor.rest_ahead, slice_writtenName, slice_writtenPayload,
    Cursor.skip_append _ _ _ hdata, hend]
  rw [nameBytes, unitsOf_unitBytes, spell_units hnul]
  rfl

/-! ## All entries -/

/-- Entries in front of the cursor are read one after the other. -/
theorem readEntries_flatMap_entryBytes {files : List ProvisionFile}
    (hnul : ∀ f ∈ files, '\x00' ∉ f.name.toList)
    (hsize : ∀ f ∈ files, entrySize f < UInt32.size) (index position : Nat) :
    readEntries files.length index (.ahead position (files.flatMap entryBytes))
      = .ok (files.map returned) := by
  induction files generalizing index position with
  | nil => rfl
  | cons f rest ih =>
      -- one entry is passed, and the cursor stands in front of the others
      have hentry := readEntry_entryBytes (hnul f List.mem_cons_self) (hsize f List.mem_cons_self)
        index position (rest.flatMap entryBytes)
      have hrest := ih (fun g hg => hnul g (List.mem_cons_of_mem f hg))
        (fun g hg => hsize g (List.mem_cons_of_mem f hg)) (index + 1) (position + entrySize f)
      rw [List.flatMap_cons, List.length_cons, readEntries, hentry, Except.ok_bind]
      show (readEntries rest.length (index + 1) _ >>= _) = _
      rw [hrest]
      rfl

theorem decode_archiveBytes {files : List ProvisionFile}
    (hnul : ∀ f ∈ files, '\x00' ∉ f.name.toList) (hsize : totalSize files < UInt32.size) :
    decode (archiveBytes files) = .ok (files.map returned) := by
  have hcount : files.length < UInt32.size :=
    Nat.lt_of_le_of_lt (length_le_totalSize files) hsize
  have hword : ∀ n, n < UInt32.size → toLittleEndian 4 n
      = toLittleEndian 4 (UInt32.ofNat n).toNat := by
    intro n hn
    rw [UInt32.toNat_ofNat_of_lt' hn]
  rw [decode, archiveBytes, hword _ hsize, hword _ hcount, Cursor.ofBytes_eq_ahead,
    Cursor.readU32_append, Except.mapError_ok, Except.ok_bind]
  show ((Cursor.readU32 _).mapError _ >>= _) = _
  rw [Cursor.readU32_append, Except.mapError_ok, Except.ok_bind]
  show readEntries (UInt32.ofNat files.length).toNat 0 _ = _
  rw [UInt32.toNat_ofNat_of_lt' hcount]
  exact readEntries_flatMap_entryBytes hnul
    (fun f hf => Nat.lt_of_le_of_lt (entrySize_le_of_mem hf) hsize) 0 _

/-- A list of files comes back as it was exactly when no name changes. -/
theorem map_returned_eq_iff {files : List ProvisionFile} :
    files.map returned = files ↔
      ∀ f ∈ files, (∀ c ∈ f.name.toList, c.toNat ≤ 0xff) ∧ f.name ≠ hiddenName := by
  have hfile : ∀ f : ProvisionFile, returned f = f ↔ expose (narrowed f.name) = f.name := by
    intro f
    obtain ⟨name, payload⟩ := f
    simp [returned]
  induction files with
  | nil => exact ⟨fun _ f hf => absurd hf List.not_mem_nil, fun _ => rfl⟩
  | cons f rest ih =>
      rw [List.map_cons, List.cons.injEq, List.forall_mem_cons, hfile, expose_narrowed_eq_iff]
      exact and_congr_right fun _ => ih

/-- **Decoding what was encoded.**  Files whose names hold no NUL and that
    fit in thirty-two bits are encoded; decoding gives as many files in the
    same order, with the same payloads and with every name narrowed unit by
    unit and then exposed.  They are the files that went in exactly when
    every name has only characters below U+0100 and none is the hidden
    one. -/
theorem decode_encode (files : List ProvisionFile)
    (hnul : ∀ f ∈ files, '\x00' ∉ f.name.toList)
    (hsize : canonicalSize files ≤ 2 ^ 32 - 1) :
    ∃ archive, encode files = .ok archive ∧
      decode archive = .ok (files.map fun f => ⟨expose (narrowed f.name), f.payload⟩) ∧
      (decode archive = .ok files ↔
        ∀ f ∈ files, (∀ c ∈ f.name.toList, c.toNat ≤ 0xff) ∧ f.name ≠ hiddenName) := by
  have hfits : totalSize files < UInt32.size := by
    rw [totalSize_eq_canonicalSize]
    exact Nat.lt_of_le_of_lt hsize (by decide)
  have hdecode := decode_archiveBytes hnul hfits
  refine ⟨archiveBytes files, encode_eq_ok hnul hfits, hdecode, ?_⟩
  rw [hdecode, Except.ok.injEq, map_returned_eq_iff]

/-- The hidden name and a name outside Latin-1 do not come back. -/
theorem decode_encode_unattend : ∃ archive,
    encode [⟨"unattend.xml", [7]⟩, ⟨"\u0141", []⟩] = .ok archive ∧
    decode archive = .ok [⟨"specialize", [7]⟩, ⟨"A", []⟩] := by
  obtain ⟨archive, hencode, hdecode, -⟩ :=
    decode_encode [⟨"unattend.xml", [7]⟩, ⟨"\u0141", []⟩] (by decide +kernel) (by decide +kernel)
  refine ⟨archive, hencode, hdecode.trans ?_⟩
  decide +kernel

end DiskKeys.Archive
