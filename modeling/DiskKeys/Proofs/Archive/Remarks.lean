import DiskKeys.Proofs.Archive.Placement

/-! # What is remarked on an archive

    Of an archive that is accepted the log tells the name and the length of
    each file, in their order (`entryRemarks_of_decode`).  So the remarks on
    entries depend on nothing else (`entryRemarks_congr`), and what two
    archives of the same names and lengths can be told apart by is the one
    remark on a total length that is wrong.  On an archive that was encoded
    there is none (`lengthRemarks_of_encode`). -/

namespace DiskKeys.Archive

variable {a a' : Bytes} {files files' : List ProvisionFile}

theorem declared_of_header (h : 8 ≤ a.length) :
    declared a = .ok ((.ofNat (numberAt a 4 0), .ofNat (numberAt a 4 4)), .after a 8) := by
  rw [declared, Cursor.ofBytes_eq_after, Cursor.readU32_after (Nat.zero_le _), if_pos (by omega),
    Except.ok_bind]
  show (Cursor.readU32 (.after a 4) >>= _) = _
  rw [Cursor.readU32_after (by omega), if_pos h]
  rfl

/-! ## The entries -/

theorem entryRemark_congr {f f' : ProvisionFile} (h : profile f = profile f') (index : Nat) :
    entryRemark index f = entryRemark index f' := by
  obtain ⟨hname, hlength⟩ := Prod.mk.inj h
  rw [entryRemark, entryRemark, hname, hlength]

/-- Entries that are read are remarked on one by one. -/
theorem entryRemarksFrom_of_readEntries {count index : Nat} {c : Cursor}
    (h : readEntries count index c = .ok files) :
    entryRemarksFrom count index c = files.mapIdx fun i f => entryRemark (index + i) f := by
  induction count generalizing index c files with
  | zero =>
      cases h
      rfl
  | succ count ih =>
      obtain ⟨⟨file, next⟩, hentry, h⟩ := Except.bind_eq_ok.mp h
      obtain ⟨rest, hrest, h⟩ := Except.bind_eq_ok.mp h
      cases h
      rw [entryRemarksFrom, hentry, List.mapIdx_cons]
      simp only [ih hrest, Nat.add_zero, Nat.add_assoc, Nat.add_comm 1]

/-- The remarks on the entries of an archive that is accepted. -/
theorem entryRemarks_of_decode (h : decode a = .ok files) :
    entryRemarks a = files.mapIdx entryRemark := by
  have hheader : 8 ≤ a.length := by
    by_contra hshort
    rw [decode_of_short (by omega)] at h
    exact nomatch h
  have hcount : (UInt32.ofNat (numberAt a 4 4)).toNat = numberAt a 4 4 :=
    UInt32.toNat_ofNat_of_lt' (numberAt_lt a 4 4)
  rw [decode_of_header hheader] at h
  rw [entryRemarks, declared_of_header hheader]
  show entryRemarksFrom (UInt32.ofNat (numberAt a 4 4)).toNat 0 (.after a (entryStart a 0)) = _
  rw [hcount, entryRemarksFrom_of_readEntries h]
  simp only [Nat.zero_add]

/-- They show names and lengths only. -/
theorem entryRemarks_congr (h : decode a = .ok files) (h' : decode a' = .ok files')
    (hprofile : files.map profile = files'.map profile) : entryRemarks a = entryRemarks a' := by
  rw [entryRemarks_of_decode h, entryRemarks_of_decode h']
  refine List.ext_getElem? ?_
  intro i
  have hi := congrArg (·[i]?) hprofile
  simp only [List.getElem?_map] at hi
  rw [List.getElem?_mapIdx, List.getElem?_mapIdx]
  cases hf : files[i]? with
  | none =>
      rw [hf, Option.map_none, eq_comm, Option.map_eq_none_iff] at hi
      rw [hi]
  | some f =>
      rw [hf, Option.map_some, eq_comm, Option.map_eq_some_iff] at hi
      obtain ⟨f', hf', hsame⟩ := hi
      rw [hf', Option.map_some, Option.map_some, entryRemark_congr hsame.symm]

/-! ## The total length -/

/-- There is a remark on the total length exactly if it is wrong. -/
theorem lengthRemarks_eq_nil_iff (h : 8 ≤ a.length) :
    lengthRemarks a = [] ↔ numberAt a 4 0 = a.length := by
  have htotal : (UInt32.ofNat (numberAt a 4 0)).toNat = numberAt a 4 0 :=
    UInt32.toNat_ofNat_of_lt' (numberAt_lt a 4 0)
  rw [lengthRemarks, declared_of_header h]
  simp only [htotal]
  by_cases heq : numberAt a 4 0 = a.length
  · simp [heq]
  · simp [heq]

theorem lengthRemarks_of_encode (h : encode files = .ok a) : lengthRemarks a = [] := by
  obtain ⟨-, hsize, rfl⟩ := encode_eq_ok_iff.mp h
  have hlength := length_archiveBytes files
  have hheader : 8 ≤ (archiveBytes files).length := by
    rw [hlength, totalSize_eq]
    exact Nat.le_add_right 8 _
  rw [lengthRemarks_eq_nil_iff hheader, (header_archiveBytes hsize).1, hlength]

end DiskKeys.Archive
