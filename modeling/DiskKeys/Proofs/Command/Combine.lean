import DiskKeys.Proofs.Command.Output
import DiskKeys.Proofs.Command.Split
import DiskKeys.Proofs.Files.Alike
import DiskKeys.Proofs.Files.Inside
import DiskKeys.Proofs.Files.Rewrite
import DiskKeys.Proofs.KeyBlob.NormalForm

/-! # Splitting and combining undo each other

    A command reads its inputs as they are when it starts, and what it has
    written is read back as it was written, if its outputs are different
    files (`storesKeys_of_split`, `combine_eq_ok`).  So the keys of which a
    blob is made are those into which it is split, and the keys into which
    a blob is split make up the form of it that has the boot key first and
    nothing behind it.  Splitting that form writes to each key file what is
    there already, and succeeds because both have been written before
    (`split_again`). -/

namespace DiskKeys.FileTree

variable {t t' : FileTree} {mishap : Option Mishap} {mishaps : Mishaps}
  {blob bootKey rootKey output : Path} {keys : KeyPair}

/-- All that was done to a tree is to put a secret where a path leads. -/
def Stores (t : FileTree) (p : Path) (secret : Bytes) (t' : FileTree) : Prop :=
  ∃ loc, t'.resolve p = .ok (loc, .file 0o400 secret) ∧ t.ChangesOnly [loc] (homesOf p) t'

/-- All that was done to a tree is to put two keys into two files. -/
def StoresKeys (t : FileTree) (bootKey rootKey : Path) (keys : KeyPair) (t' : FileTree) : Prop :=
  ∃ boot root, boot ≠ root ∧
    t'.resolve bootKey = .ok (boot, .file 0o400 keys.boot) ∧
    t'.resolve rootKey = .ok (root, .file 0o400 keys.root) ∧
    t.ChangesOnly [boot, root] (homesOf bootKey ++ homesOf rootKey) t'

/-! ## Writes -/

theorem fileOf?_eq_some {p : Path} {loc : Location} :
    t.fileOf? p = some loc ↔ ∃ mode contents, t.resolve p = .ok (loc, .file mode contents) := by
  unfold fileOf?
  split
  · rename_i loc' mode contents h
    rw [h]
    simp
  · rename_i h
    exact ⟨nofun, fun ⟨mode, contents, hfile⟩ => absurd hfile (h loc mode contents)⟩

theorem fileOf?_of_resolve {p : Path} {loc : Location} {mode : Nat} {contents : Bytes}
    (h : t.resolve p = .ok (loc, .file mode contents)) : t.fileOf? p = some loc :=
  fileOf?_eq_some.mpr ⟨mode, contents, h⟩

/-- Where a file is found it is still found when a secret has been stored,
    maybe in its place. -/
theorem Stores.fileOf? {p q : Path} {secret : Bytes} {loc : Location} (h : t.Stores p secret t')
    (hq : t.fileOf? q = some loc) : t'.fileOf? q = some loc := by
  obtain ⟨place, hresolve, hchanges⟩ := h
  obtain ⟨mode, contents, hq⟩ := fileOf?_eq_some.mp hq
  by_cases heq : loc = place
  · subst heq
    exact fileOf?_of_resolve (hchanges.keeps.resolve_file hq (node?_of_resolve hresolve))
  · exact fileOf?_of_resolve (hchanges.resolve_file (by simpa using heq) hq)

theorem Stores.resolve_of_ne {p q : Path} {secret : Bytes} {loc : Location} {mode : Nat}
    {contents : Bytes} (h : t.Stores p secret t') (hapart : t'.fileOf? p ≠ t'.fileOf? q)
    (hq : t.resolve q = .ok (loc, .file mode contents)) :
    t'.resolve q = .ok (loc, .file mode contents) := by
  have hfile := h.fileOf? (fileOf?_of_resolve hq)
  obtain ⟨place, hresolve, hchanges⟩ := h
  rw [fileOf?_of_resolve hresolve, hfile] at hapart
  refine hchanges.resolve_file ?_ hq
  rw [List.mem_singleton]
  rintro rfl
  exact hapart rfl

theorem Stores.keeps {p : Path} {secret : Bytes} (h : t.Stores p secret t') : t.Keeps t' := by
  obtain ⟨loc, -, hchanges⟩ := h
  exact hchanges.keeps

theorem Stores.readSecret {p : Path} {secret : Bytes} (h : t.Stores p secret t') :
    t'.readSecret p = .ok secret := by
  obtain ⟨loc, hresolve, -⟩ := h
  exact readSecret_of_resolve hresolve rfl

/-- Two keys that are written one after the other into different files are
    both there. -/
theorem storesKeys_of_writeSecret (ht : t.WellFormed) {t₁ t₂ : FileTree}
    {mishap mishap' : Option Mishap}
    (hboot : t.writeSecret mishap bootKey keys.boot = (.ok (), t₁))
    (hroot : t₁.writeSecret mishap' rootKey keys.root = (.ok (), t₂))
    (hapart : t₂.fileOf? bootKey ≠ t₂.fileOf? rootKey) :
    t.StoresKeys bootKey rootKey keys t₂ := by
  obtain ⟨boot, hresolveBoot, hchangesBoot⟩ := changesOnly_of_writeSecret_ok ht hboot
  have hstores : t₁.Stores rootKey keys.root t₂ :=
    changesOnly_of_writeSecret_ok (ht.of_writeSecret hboot) hroot
  obtain ⟨root, hresolveRoot, hchangesRoot⟩ := hstores
  have hne : boot ≠ root := by
    rintro rfl
    have hover := Stores.fileOf? ⟨boot, hresolveRoot, hchangesRoot⟩ (fileOf?_of_resolve hresolveBoot)
    exact hapart (hover.trans (fileOf?_of_resolve hresolveRoot).symm)
  refine ⟨boot, root, hne, hchangesRoot.resolve_file (by simpa using hne) hresolveBoot,
    hresolveRoot, ?_⟩
  exact (hchangesBoot.mono (by simp) (List.subset_append_left _ _)).trans
    (hchangesRoot.mono (by simp) (List.subset_append_right _ _))

/-- What is read from the two files are the keys. -/
theorem StoresKeys.keys_unique {keys' : KeyPair} (h : t.StoresKeys bootKey rootKey keys t')
    (hboot : t'.readSecret bootKey = .ok keys'.boot)
    (hroot : t'.readSecret rootKey = .ok keys'.root) : keys' = keys := by
  obtain ⟨_, _, -, hresolveBoot, hresolveRoot, -⟩ := h
  obtain ⟨boot, root⟩ := keys
  obtain ⟨boot', root'⟩ := keys'
  cases hboot.symm.trans (readSecret_of_resolve hresolveBoot rfl)
  cases hroot.symm.trans (readSecret_of_resolve hresolveRoot rfl)
  rfl

/-! ## Single commands -/

/-- A split into different files has stored the keys of its blob, and could do
    so again. -/
theorem storesKeys_of_split (ht : t.WellFormed)
    (h : (t.split mishaps blob bootKey rootKey).result = .ok ())
    (hapart : (t.split mishaps blob bootKey rootKey).tree.fileOf? bootKey
      ≠ (t.split mishaps blob bootKey rootKey).tree.fileOf? rootKey) :
    ∃ bytes keys, t.readSecret blob = .ok bytes ∧ KeyBlob.decode bytes = .ok keys ∧
      t.StoresKeys bootKey rootKey keys (t.split mishaps blob bootKey rootKey).tree ∧
      (t.split mishaps blob bootKey rootKey).tree.Accepts bootKey ∧
      (t.split mishaps blob bootKey rootKey).tree.Accepts rootKey := by
  obtain ⟨bytes, keys, t₁, hread, hdecode, hboot, hroot⟩ := split_eq_ok.mp ⟨h, rfl⟩
  have ht₁ := ht.of_writeSecret hboot
  obtain ⟨_, -, hchanges⟩ := changesOnly_of_writeSecret_ok ht₁ hroot
  have hkeys := storesKeys_of_writeSecret ht hboot hroot hapart
  refine ⟨bytes, keys, hread, hdecode, hkeys, ?_, accepts_of_writeSecret_ok ht₁ hroot⟩
  obtain ⟨_, _, -, hresolve, -⟩ := hkeys
  exact hchanges.keeps.accepts (accepts_of_writeSecret_ok ht hboot) hresolve

/-- The root key is written last, and so it is there in any case. -/
theorem exists_fileOf?_of_split (ht : t.WellFormed)
    (h : (t.split mishaps blob bootKey rootKey).result = .ok ()) :
    ∃ root, (t.split mishaps blob bootKey rootKey).tree.fileOf? rootKey = some root := by
  obtain ⟨bytes, keys, t₁, -, -, hboot, hroot⟩ := split_eq_ok.mp ⟨h, rfl⟩
  obtain ⟨root, hresolve, -⟩ := changesOnly_of_writeSecret_ok (ht.of_writeSecret hboot) hroot
  exact ⟨root, fileOf?_of_resolve hresolve⟩

/-- A combine that succeeds has read keys that fit in a blob and written the
    blob. -/
theorem combine_eq_ok (h : (t.combine mishap bootKey rootKey output).result = .ok ()) :
    ∃ keys : KeyPair, t.readSecret bootKey = .ok keys.boot ∧
      t.readSecret rootKey = .ok keys.root ∧
      (∀ kind, (keys.get kind).length ≤ KeyBlob.maxKeySize) ∧
      t.writeSecret mishap output (KeyBlob.orderedBytes .boot keys)
        = (.ok (), (t.combine mishap bootKey rootKey output).tree) := by
  have hdelivers := delivers_combine t mishap bootKey rootKey output
  rw [h] at hdelivers
  obtain ⟨blob, hblob, hwrite⟩ := hdelivers.exists_writeSecret
  obtain ⟨keys, hboot, hroot, hencode⟩ := blobOf_eq_ok.mp hblob
  obtain ⟨hfitBoot, hfitRoot, rfl⟩ := KeyBlob.encode_eq_ok_iff.mp hencode
  exact ⟨keys, hboot, hroot, KeyKind.rec hfitBoot hfitRoot, hwrite⟩

theorem stores_of_combine (ht : t.WellFormed)
    (h : (t.combine mishap bootKey rootKey output).result = .ok ()) :
    ∃ keys : KeyPair, (t.combine mishap bootKey rootKey output).tree.WellFormed ∧
      t.readSecret bootKey = .ok keys.boot ∧ t.readSecret rootKey = .ok keys.root ∧
      KeyBlob.decode (KeyBlob.orderedBytes .boot keys) = .ok keys ∧
      t.Stores output (KeyBlob.orderedBytes .boot keys)
        (t.combine mishap bootKey rootKey output).tree := by
  obtain ⟨keys, hboot, hroot, hfit, hwrite⟩ := combine_eq_ok h
  refine ⟨keys, ht.of_writeSecret hwrite, hboot, hroot, ?_,
    changesOnly_of_writeSecret_ok ht hwrite⟩
  exact KeyBlob.decode_eq_ok_iff.mpr ⟨hfit, .boot, [], (List.append_nil _).symm⟩

/-- Keys that were written before into different files can be written again
    from any blob of them, if the device fails at nothing, and then all
    files are as they were. -/
theorem split_again (ht : t.WellFormed) {bytes : Bytes} {boot root : Location} (hne : boot ≠ root)
    (hread : t.readSecret blob = .ok bytes) (hdecode : KeyBlob.decode bytes = .ok keys)
    (hbootAccepts : t.Accepts bootKey) (hrootAccepts : t.Accepts rootKey)
    (hboot : t.resolve bootKey = .ok (boot, .file secretMode keys.boot))
    (hroot : t.resolve rootKey = .ok (root, .file secretMode keys.root)) :
    let done := t.split (fun _ => none) blob bootKey rootKey
    done.result = .ok () ∧ t.StoresKeys bootKey rootKey keys done.tree ∧
      done.tree.file? = t.file? := by
  intro done
  obtain ⟨t₁, hwriteBoot⟩ := exists_writeSecret_ok ht hbootAccepts keys.boot
  obtain ⟨hboot₁, hchangesBoot⟩ := changesOnly_of_rewrite ht hboot hwriteBoot
  have ht₁ := ht.of_writeSecret hwriteBoot
  have hroot₁ := hchangesBoot.resolve_file (by simpa using hne.symm) hroot
  obtain ⟨t₂, hwriteRoot⟩ :=
    exists_writeSecret_ok ht₁ (hchangesBoot.keeps.accepts hrootAccepts hroot₁) keys.root
  obtain ⟨hroot₂, hchangesRoot⟩ := changesOnly_of_rewrite ht₁ hroot₁ hwriteRoot
  obtain ⟨hresult, htree⟩ : done.result = .ok () ∧ done.tree = t₂ :=
    split_eq_ok.mpr ⟨bytes, keys, t₁, hread, hdecode, hwriteBoot, hwriteRoot⟩
  have hboot₂ := hchangesRoot.resolve_file (by simpa using hne) hboot₁
  refine ⟨hresult, ?_, ?_⟩
  · rw [htree]
    refine storesKeys_of_writeSecret ht hwriteBoot hwriteRoot ?_
    rw [fileOf?_of_resolve hboot₂, fileOf?_of_resolve hroot₂]
    simpa using hne
  · -- each write puts what is there
    have hfileBoot := file?_of_writeSecret_ok hboot₁ hchangesBoot
    rw [← file?_eq_some.mpr (node?_of_resolve hboot), Function.update_eq_self] at hfileBoot
    have hfileRoot := file?_of_writeSecret_ok hroot₂ hchangesRoot
    rw [← file?_eq_some.mpr (node?_of_resolve hroot₁), Function.update_eq_self] at hfileRoot
    rw [htree, hfileRoot, hfileBoot]

/-! ## One after the other -/

/-- **Splitting and combining undo each other.**  Keys that are combined into
    a blob are found again in two different files into which the blob is
    split.  And if a blob is split into two files, and these are combined
    into a third, that holds the same keys, the boot key first and nothing
    behind the second; splitting it again succeeds, unless the device
    fails, and leaves all files as they are.  Each command changes nothing
    but the files that it writes, which only their owner may read. -/
theorem split_combine_inverse (ht : t.WellFormed) :
    (∀ mishap mishaps bootKey rootKey output bootKey' rootKey',
      let t₁ := (t.combine mishap bootKey rootKey output).tree
      let t₂ := (t₁.split mishaps output bootKey' rootKey').tree
      (t.combine mishap bootKey rootKey output).result = .ok () →
      (t₁.split mishaps output bootKey' rootKey').result = .ok () →
      t₂.fileOf? bootKey' ≠ t₂.fileOf? rootKey' →
      ∃ keys : KeyPair,
        t.readSecret bootKey = .ok keys.boot ∧ t.readSecret rootKey = .ok keys.root ∧
        t.Stores output (KeyBlob.orderedBytes .boot keys) t₁ ∧
        t₁.StoresKeys bootKey' rootKey' keys t₂) ∧
    (∀ mishaps mishap blob bootKey rootKey output,
      let t₁ := (t.split mishaps blob bootKey rootKey).tree
      let t₂ := (t₁.combine mishap bootKey rootKey output).tree
      let t₃ := (t₂.split (fun _ => none) output bootKey rootKey).tree
      (t.split mishaps blob bootKey rootKey).result = .ok () →
      (t₁.combine mishap bootKey rootKey output).result = .ok () →
      t₂.fileOf? bootKey ≠ t₂.fileOf? rootKey →
      t₂.fileOf? output ≠ t₂.fileOf? bootKey → t₂.fileOf? output ≠ t₂.fileOf? rootKey →
      ∃ keys first tail,
        t.readSecret blob = .ok (KeyBlob.orderedBytes first keys ++ tail) ∧
        t.StoresKeys bootKey rootKey keys t₁ ∧
        t₁.Stores output (KeyBlob.orderedBytes .boot keys) t₂ ∧
        (t₂.split (fun _ => none) output bootKey rootKey).result = .ok () ∧
        t₂.StoresKeys bootKey rootKey keys t₃ ∧ t₃.file? = t₂.file?) := by
  constructor
  · intro mishap mishaps bootKey rootKey output bootKey' rootKey' t₁ t₂ hcombine hsplit hapart
    obtain ⟨keys, ht₁, hboot, hroot, hdecode, hstores⟩ := stores_of_combine ht hcombine
    obtain ⟨bytes, keys', hread, hdecode', hkeys, -⟩ := storesKeys_of_split ht₁ hsplit hapart
    obtain rfl : bytes = KeyBlob.orderedBytes .boot keys :=
      Except.ok.inj (hread.symm.trans hstores.readSecret)
    obtain rfl : keys' = keys := Except.ok.inj (hdecode'.symm.trans hdecode)
    exact ⟨keys', hboot, hroot, hstores, hkeys⟩
  · intro mishaps mishap blob bootKey rootKey output t₁ t₂ t₃ hsplit hcombine hapart hapartBoot
      hapartRoot
    have ht₁ : t₁.WellFormed := ht.split mishaps blob bootKey rootKey
    obtain ⟨keys', ht₂, hreadBoot, hreadRoot, hdecode', hstores⟩ := stores_of_combine ht₁ hcombine
    -- paths of one file would still be paths of one file
    have hapart₁ : t₁.fileOf? bootKey ≠ t₁.fileOf? rootKey := by
      intro heq
      obtain ⟨root, hroot⟩ := exists_fileOf?_of_split ht hsplit
      exact hapart ((hstores.fileOf? (heq.trans hroot)).trans (hstores.fileOf? hroot).symm)
    obtain ⟨bytes, keys, hread, hdecode, hkeys, hacceptsBoot, hacceptsRoot⟩ :=
      storesKeys_of_split ht hsplit hapart₁
    obtain rfl : keys' = keys := hkeys.keys_unique hreadBoot hreadRoot
    obtain ⟨-, first, tail, rfl⟩ := KeyBlob.decode_eq_ok_iff.mp hdecode
    refine ⟨keys', first, tail, hread, hkeys, hstores, ?_⟩
    obtain ⟨boot, root, hne, hboot, hroot, -⟩ := hkeys
    have hboot₂ := hstores.resolve_of_ne hapartBoot hboot
    have hroot₂ := hstores.resolve_of_ne hapartRoot hroot
    exact split_again ht₂ hne hstores.readSecret hdecode'
      (hstores.keeps.accepts hacceptsBoot hboot₂) (hstores.keeps.accepts hacceptsRoot hroot₂)
      hboot₂ hroot₂

/-- A tree with a boot key, and with a blob that has its root key first and a
    byte behind the boot key. -/
def vault : FileTree :=
  (empty.put [Text.Utf8.encode "boot"] (.file 0o644 [1])).put [Text.Utf8.encode "blob"]
    (.file 0o644 [2, 0, 2, 0, 1, 0, 8, 1, 0, 1, 0, 7, 9])

/-- The boot key and the blob, taken as a key, are combined and found again in
    two new files; and the keys of the blob are combined again. -/
theorem split_combine_inverse_vault :
    (∃ keys : KeyPair, vault.readSecret (.ofString "blob") = .ok keys.root ∧
      let t₁ := (vault.combine none (.ofString "boot") (.ofString "blob") (.ofString "sum")).tree
      t₁.StoresKeys (.ofString "a") (.ofString "b") keys
        (t₁.split (fun _ => none) (.ofString "sum") (.ofString "a") (.ofString "b")).tree) ∧
    ∃ keys : KeyPair,
      let t₁ := (vault.split (fun _ => none) (.ofString "blob") (.ofString "boot")
        (.ofString "root")).tree
      vault.StoresKeys (.ofString "boot") (.ofString "root") keys t₁ ∧
      t₁.Stores (.ofString "sum") (KeyBlob.orderedBytes .boot keys)
        (t₁.combine none (.ofString "boot") (.ofString "root") (.ofString "sum")).tree := by
  have ht : vault.WellFormed := by decide +kernel
  obtain ⟨hcombine, hsplit⟩ := split_combine_inverse ht
  constructor
  · obtain ⟨keys, -, hroot, -, hkeys⟩ := hcombine none (fun _ => none) (.ofString "boot")
      (.ofString "blob") (.ofString "sum") (.ofString "a") (.ofString "b") (by decide +kernel)
      (by decide +kernel) (by decide +kernel)
    exact ⟨keys, hroot, hkeys⟩
  · obtain ⟨keys, -, -, -, hkeys, hstores, -⟩ := hsplit (fun _ => none) none (.ofString "blob")
      (.ofString "boot") (.ofString "root") (.ofString "sum") (by decide +kernel)
      (by decide +kernel) (by decide +kernel) (by decide +kernel) (by decide +kernel)
    exact ⟨keys, hkeys, hstores⟩

end DiskKeys.FileTree
