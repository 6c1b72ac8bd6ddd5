import Mathlib.Algebra.Ring.Nat
import DiskKeys.Proofs.Attempt
import DiskKeys.Proofs.Archive.Name

/-! # The layout of archives

    Encoding writes a header of eight bytes and then the entries one after
    the other, each with its name right after its own header and its
    payload right after its name.  When the whole fits in thirty-two bits
    so does every size in it, and encoding succeeds (`encode_eq_ok`). -/

namespace DiskKeys

namespace Archive

/-- The bytes that files take in the layout that encoding chooses: a header
    and, for each file, a header, two bytes per unit of the name, and the
    payload. -/
def canonicalSize (files : List ProvisionFile) : Nat :=
  8 + (files.map fun f =>
    20 + 2 * (Text.Utf16.units f.name.toList).length + f.payload.length).sum

/-- The written form of the header of an entry. -/
def headerBytes (f : ProvisionFile) : Bytes :=
  toLittleEndian 4 0 ++ (toLittleEndian 4 (nameBytes f.name).length
    ++ (toLittleEndian 4 entryHeaderSize ++ (toLittleEndian 4 f.payload.length
    ++ toLittleEndian 4 (entryHeaderSize + (nameBytes f.name).length))))

/-- The written form of an entry. -/
def entryBytes (f : ProvisionFile) : Bytes :=
  headerBytes f ++ (nameBytes f.name ++ f.payload)

/-- The written form of an archive. -/
def archiveBytes (files : List ProvisionFile) : Bytes :=
  toLittleEndian 4 (totalSize files) ++ (toLittleEndian 4 files.length
    ++ files.flatMap entryBytes)

/-! ## Sizes -/

theorem length_headerBytes (f : ProvisionFile) : (headerBytes f).length = entryHeaderSize := by
  simp only [headerBytes, List.length_append, length_toLittleEndian, entryHeaderSize]

theorem length_entryBytes (f : ProvisionFile) : (entryBytes f).length = entrySize f := by
  rw [entryBytes, List.length_append, List.length_append, length_headerBytes, entrySize,
    Nat.add_assoc]

theorem length_nameBytes (name : String) :
    (nameBytes name).length = 2 * (Text.Utf16.units name.toList).length :=
  length_unitBytes _

theorem foldl_entrySize (n : Nat) (files : List ProvisionFile) :
    files.foldl (fun n f => n + entrySize f) n = n + (files.map entrySize).sum := by
  induction files generalizing n with
  | nil => rfl
  | cons f rest ih =>
      rw [List.foldl_cons, ih, List.map_cons, List.sum_cons]
      omega

theorem totalSize_eq (files : List ProvisionFile) :
    totalSize files = headerSize + (files.map entrySize).sum :=
  foldl_entrySize headerSize files

theorem totalSize_eq_canonicalSize (files : List ProvisionFile) :
    totalSize files = canonicalSize files := by
  have hentry : ∀ f : ProvisionFile,
      entrySize f = 20 + 2 * (Text.Utf16.units f.name.toList).length + f.payload.length := by
    intro f
    rw [entrySize, length_nameBytes]
    rfl
  rw [totalSize_eq, canonicalSize, List.map_congr_left fun f _ => hentry f]
  rfl

/-- Every entry fits where the whole does. -/
theorem entrySize_le_of_mem {files : List ProvisionFile} {f : ProvisionFile} (h : f ∈ files) :
    entrySize f ≤ totalSize files := by
  obtain ⟨before, after, rfl⟩ := List.append_of_mem h
  rw [totalSize_eq, List.map_append, List.map_cons, List.sum_append, List.sum_cons]
  omega

/-- There are no more entries than bytes. -/
theorem length_le_totalSize (files : List ProvisionFile) : files.length ≤ totalSize files := by
  rw [totalSize_eq]
  induction files with
  | nil => exact Nat.zero_le _
  | cons f rest ih =>
      have hpos : 1 ≤ entrySize f := by
        rw [entrySize, entryHeaderSize]
        omega
      rw [List.length_cons, List.map_cons, List.sum_cons]
      omega

/-! ## Writing -/

theorem field_eq_ok {n : Nat} (h : n < UInt32.size) (name : String) (what : Measure) :
    field n name what = .ok (.ofNat n) := if_pos h

/-- An entry that fits is written. -/
theorem putEntry_eq_ok {f : ProvisionFile} (h : entrySize f < UInt32.size) (b : Builder) :
    ∃ b', putEntry b f = .ok b' ∧ b'.toBytes = b.toBytes ++ entryBytes f := by
  rw [entrySize] at h
  have hname : (nameBytes f.name).length < UInt32.size := by omega
  have hpayload : f.payload.length < UInt32.size := by omega
  have hoffset : entryHeaderSize + (nameBytes f.name).length < UInt32.size := by omega
  have hheader : entryHeaderSize < UInt32.size := by decide
  refine ⟨(((((((b.putU32 0).putU32 (.ofNat (nameBytes f.name).length)).putU32
      (.ofNat entryHeaderSize)).putU32 (.ofNat f.payload.length)).putU32
      (.ofNat (entryHeaderSize + (nameBytes f.name).length))).putBytes
      (nameBytes f.name)).putBytes f.payload), ?_, ?_⟩
  · rw [putEntry, field_eq_ok hname, field_eq_ok hpayload, field_eq_ok hoffset]
    rfl
  · simp only [Builder.toBytes_putBytes, Builder.toBytes_putU32, entryBytes, headerBytes,
      List.append_assoc, UInt32.toNat_ofNat_of_lt' hname, UInt32.toNat_ofNat_of_lt' hpayload,
      UInt32.toNat_ofNat_of_lt' hoffset, UInt32.toNat_ofNat_of_lt' hheader, UInt32.toNat_zero]

/-- Entries that fit are written one after the other. -/
theorem foldlM_putEntry_eq_ok {files : List ProvisionFile}
    (h : ∀ f ∈ files, entrySize f < UInt32.size) (b : Builder) :
    ∃ b', files.foldlM putEntry b = .ok b' ∧
      b'.toBytes = b.toBytes ++ files.flatMap entryBytes := by
  induction files generalizing b with
  | nil => exact ⟨b, rfl, (List.append_nil _).symm⟩
  | cons f rest ih =>
      obtain ⟨b₁, hput, hbytes₁⟩ := putEntry_eq_ok (h f List.mem_cons_self) b
      obtain ⟨b₂, hrest, hbytes₂⟩ := ih (fun g hg => h g (List.mem_cons_of_mem f hg)) b₁
      refine ⟨b₂, ?_, ?_⟩
      · rw [List.foldlM_cons, hput]
        exact hrest
      · rw [hbytes₂, hbytes₁, List.flatMap_cons, List.append_assoc]

/-- Files without NUL in their names that fit in thirty-two bits are
    encoded. -/
theorem encode_eq_ok {files : List ProvisionFile} (hnul : ∀ f ∈ files, '\x00' ∉ f.name.toList)
    (hsize : totalSize files < UInt32.size) : encode files = .ok (archiveBytes files) := by
  -- none of the three refusals applies: no NUL, not too many files, not too long
  have hfind : files.find? (·.name.toList.contains '\x00') = none := by
    rw [List.find?_eq_none]
    intro f hf
    simpa using hnul f hf
  have hcount : files.length < UInt32.size := by
    have := length_le_totalSize files
    omega
  have hentry : ∀ f ∈ files, entrySize f < UInt32.size :=
    fun f hf => Nat.lt_of_le_of_lt (entrySize_le_of_mem hf) hsize
  obtain ⟨b, hb, hbytes⟩ := foldlM_putEntry_eq_ok hentry
    (((Builder.withCapacity (totalSize files)).putU32 (.ofNat (totalSize files))).putU32
      (.ofNat files.length))
  simp only [encode, hfind, field_eq_ok hcount, field_eq_ok hsize, Except.ok_bind, hb,
    Except.pure_eq_ok, hbytes, archiveBytes, Builder.toBytes_putU32, Builder.toBytes_withCapacity,
    UInt32.toNat_ofNat_of_lt' hsize, UInt32.toNat_ofNat_of_lt' hcount, List.nil_append,
    List.append_assoc]

/-- Files are refused for the first name with a NUL, and then for being too
    many or too long. -/
theorem encode_eq (files : List ProvisionFile) :
    encode files =
      match (files.map (·.name)).find? (·.toList.contains '\x00') with
      | some name => .error (.nulInName name)
      | none =>
          if totalSize files < UInt32.size then .ok (archiveBytes files)
          else if files.length < UInt32.size then .error (.tooLarge "archive" .totalLength)
          else .error (.tooLarge "archive" .fileCount) := by
  rw [List.find?_map]
  cases hfind : files.find? ((·.toList.contains '\x00') ∘ (·.name)) with
  | some f =>
      replace hfind : files.find? (·.name.toList.contains '\x00') = some f := hfind
      rw [encode, hfind]
      rfl
  | none =>
      replace hfind : files.find? (·.name.toList.contains '\x00') = none := hfind
      have hnul : ∀ f ∈ files, '\x00' ∉ f.name.toList := by
        intro f hf
        simpa using List.find?_eq_none.mp hfind f hf
      rw [Option.map_none]
      by_cases hsize : totalSize files < UInt32.size
      · rw [encode_eq_ok hnul hsize, if_pos hsize]
      · by_cases hcount : files.length < UInt32.size
        · simp only [encode, hfind, field, hcount, hsize, if_true, if_false]
          rfl
        · simp only [encode, hfind, field, hcount, hsize, if_false]
          rfl

/-- Nothing else is encoded. -/
theorem encode_eq_ok_iff {files : List ProvisionFile} {archive : Bytes} :
    encode files = .ok archive ↔
      (∀ f ∈ files, '\x00' ∉ f.name.toList) ∧ totalSize files < UInt32.size ∧
        archive = archiveBytes files := by
  constructor
  · intro h
    rw [encode_eq] at h
    cases hfind : (files.map (·.name)).find? (·.toList.contains '\x00') with
    | some name =>
        rw [hfind] at h
        exact nomatch h
    | none =>
        have hnul : ∀ f ∈ files, '\x00' ∉ f.name.toList := by
          intro f hf
          simpa using List.find?_eq_none.mp hfind f.name (List.mem_map_of_mem hf)
        rw [hfind] at h
        by_cases hsize : totalSize files < UInt32.size
        · simp only [hsize, if_true, Except.ok.injEq] at h
          exact ⟨hnul, hsize, h.symm⟩
        · simp only [hsize, if_false] at h
          split at h <;> exact nomatch h
  · rintro ⟨hnul, hsize, rfl⟩
    exact encode_eq_ok hnul hsize

/-! ## Encoding without looking at payloads -/

/-- What an archive tells of a file without its bytes: the name and the
    length. -/
def profile (f : ProvisionFile) : String × Nat :=
  (f.name, f.payload.length)

theorem length_archiveBytes (files : List ProvisionFile) :
    (archiveBytes files).length = totalSize files := by
  rw [archiveBytes, List.length_append, List.length_append, length_toLittleEndian,
    length_toLittleEndian, List.length_flatMap, totalSize_eq,
    List.map_congr_left fun f _ => length_entryBytes f, ← Nat.add_assoc]
  rfl

theorem totalSize_congr {files files' : List ProvisionFile}
    (h : files.map profile = files'.map profile) : totalSize files = totalSize files' := by
  have hsizes : ∀ files : List ProvisionFile, files.map entrySize =
      (files.map profile).map fun p => entryHeaderSize + (nameBytes p.1).length + p.2 := by
    intro files
    rw [List.map_map]
    rfl
  rw [totalSize_eq, totalSize_eq, hsizes, hsizes, h]

/-- Whether and why files are refused depends on their names and lengths
    alone, and so does the length of the archive. -/
theorem encode_alike {files files' : List ProvisionFile}
    (h : files.map profile = files'.map profile) :
    (encode files).Alike (fun archive archive' => archive.length = archive'.length)
      (encode files') := by
  have hnames : files.map (·.name) = files'.map (·.name) := by
    have hfirst := congrArg (List.map Prod.fst) h
    rwa [List.map_map, List.map_map] at hfirst
  have hcount : files.length = files'.length := by
    simpa only [List.length_map] using congrArg List.length h
  have hsize := totalSize_congr h
  rw [encode_eq, encode_eq, hnames, hcount, hsize]
  cases (files'.map (·.name)).find? (·.toList.contains '\x00') with
  | some name => exact .error _
  | none =>
      by_cases hfits : totalSize files' < UInt32.size
      · simp only [hfits, if_true]
        refine .ok ?_
        rw [length_archiveBytes, length_archiveBytes, hsize]
      · simp only [hfits, if_false]
        split <;> exact .error _

end Archive

end DiskKeys
