import DiskKeys.Proofs.Command.Output

/-! # What a split that failed leaves behind

    A split writes two secrets, one after the other, and has nothing to
    bring back the first when the second cannot be written (`Splits`).  Each
    write is atomic, so the files are as they were whenever a split fails
    earlier, and when it fails there the boot key alone is new
    (`changesOnly_of_split_error`).  All other files, and with them the one
    at the path for the root key, are as they were in any case. -/

namespace DiskKeys.FileTree

variable {t : FileTree} {mishaps : Mishaps} {blob bootKey rootKey : Path} {e : FileCommandError}

/-- How a split ends: it has no blob, or it writes the keys of the blob, one
    after the other, until a write fails. -/
inductive Splits (t : FileTree) (mishaps : Mishaps) (blob bootKey rootKey : Path) :
    Except FileCommandError Unit → FileTree → Prop where
  | unread (e : FileCommandError) : Splits t mishaps blob bootKey rootKey (.error e) t
  | first {bytes : Bytes} {keys : KeyPair} {cause : KeyFileError} {t₁ : FileTree}
      (hread : t.readSecret blob = .ok bytes) (hdecode : KeyBlob.decode bytes = .ok keys)
      (hboot : t.writeSecret (mishaps 0) bootKey keys.boot = (.error cause, t₁)) :
      Splits t mishaps blob bootKey rootKey (.error (.keyFile cause)) t₁
  | second {bytes : Bytes} {keys : KeyPair} {cause : KeyFileError} {t₁ t₂ : FileTree}
      (hread : t.readSecret blob = .ok bytes) (hdecode : KeyBlob.decode bytes = .ok keys)
      (hboot : t.writeSecret (mishaps 0) bootKey keys.boot = (.ok (), t₁))
      (hroot : t₁.writeSecret (mishaps 1) rootKey keys.root = (.error cause, t₂)) :
      Splits t mishaps blob bootKey rootKey (.error (.keyFile cause)) t₂
  | both {bytes : Bytes} {keys : KeyPair} {t₁ t₂ : FileTree}
      (hread : t.readSecret blob = .ok bytes) (hdecode : KeyBlob.decode bytes = .ok keys)
      (hboot : t.writeSecret (mishaps 0) bootKey keys.boot = (.ok (), t₁))
      (hroot : t₁.writeSecret (mishaps 1) rootKey keys.root = (.ok (), t₂)) :
      Splits t mishaps blob bootKey rootKey (.ok ()) t₂

theorem splits_split (t : FileTree) (mishaps : Mishaps) (blob bootKey rootKey : Path) :
    Splits t mishaps blob bootKey rootKey (t.split mishaps blob bootKey rootKey).result
      (t.split mishaps blob bootKey rootKey).tree := by
  cases hread : t.readSecret blob with
  | error cause =>
      simp only [split, hread]
      exact .unread _
  | ok bytes =>
      cases hdecode : KeyBlob.decode bytes with
      | error cause =>
          simp only [split, hread, hdecode]
          exact .unread _
      | ok keys =>
          obtain ⟨boot, t₁, hboot⟩ :
              ∃ boot t₁, t.writeSecret (mishaps 0) bootKey keys.boot = (boot, t₁) := ⟨_, _, rfl⟩
          cases boot with
          | error cause =>
              simp only [split, hread, hdecode, writing_of_error hboot]
              exact .first hread hdecode hboot
          | ok u =>
              obtain ⟨root, t₂, hroot⟩ :
                  ∃ root t₂, t₁.writeSecret (mishaps 1) rootKey keys.root = (root, t₂) :=
                ⟨_, _, rfl⟩
              cases root with
              | error cause =>
                  simp only [split, hread, hdecode, writing_of_ok hboot, writing_of_error hroot]
                  exact .second hread hdecode hboot hroot
              | ok u =>
                  simp only [split, hread, hdecode, writing_of_ok hboot, writing_of_ok hroot]
                  exact .both hread hdecode hboot hroot

theorem WellFormed.split (ht : t.WellFormed) (mishaps : Mishaps) (blob bootKey rootKey : Path) :
    (t.split mishaps blob bootKey rootKey).tree.WellFormed := by
  have hsplits := splits_split t mishaps blob bootKey rootKey
  generalize (t.split mishaps blob bootKey rootKey).result = result,
    (t.split mishaps blob bootKey rootKey).tree = t' at hsplits ⊢
  cases hsplits with
  | unread => exact ht
  | first hread hdecode hboot => exact ht.of_writeSecret hboot
  | second hread hdecode hboot hroot => exact (ht.of_writeSecret hboot).of_writeSecret hroot
  | both hread hdecode hboot hroot => exact (ht.of_writeSecret hboot).of_writeSecret hroot

/-- A split fails before it writes anything, at the boot key, or at the root
    key when the boot key has been written. -/
theorem split_eq_error (h : (t.split mishaps blob bootKey rootKey).result = .error e) :
    (t.split mishaps blob bootKey rootKey).tree = t ∨
    ∃ bytes keys, t.readSecret blob = .ok bytes ∧ KeyBlob.decode bytes = .ok keys ∧
      ((∃ cause, t.writeSecret (mishaps 0) bootKey keys.boot
          = (.error cause, (t.split mishaps blob bootKey rootKey).tree)) ∨
        ∃ t₁ cause, t.writeSecret (mishaps 0) bootKey keys.boot = (.ok (), t₁) ∧
          t₁.writeSecret (mishaps 1) rootKey keys.root
            = (.error cause, (t.split mishaps blob bootKey rootKey).tree)) := by
  have hsplits := splits_split t mishaps blob bootKey rootKey
  rw [h] at hsplits
  generalize (t.split mishaps blob bootKey rootKey).tree = t' at hsplits ⊢
  cases hsplits with
  | unread => exact Or.inl rfl
  | @first bytes keys cause _ hread hdecode hboot =>
      exact Or.inr ⟨bytes, keys, hread, hdecode, Or.inl ⟨cause, hboot⟩⟩
  | @second bytes keys cause t₁ _ hread hdecode hboot hroot =>
      exact Or.inr ⟨bytes, keys, hread, hdecode, Or.inr ⟨t₁, cause, hboot, hroot⟩⟩

/-- A split succeeds exactly when it has decoded the blob and written both
    keys. -/
theorem split_eq_ok {t₂ : FileTree} :
    (t.split mishaps blob bootKey rootKey).result = .ok () ∧
      (t.split mishaps blob bootKey rootKey).tree = t₂ ↔
      ∃ bytes keys t₁, t.readSecret blob = .ok bytes ∧ KeyBlob.decode bytes = .ok keys ∧
        t.writeSecret (mishaps 0) bootKey keys.boot = (.ok (), t₁) ∧
        t₁.writeSecret (mishaps 1) rootKey keys.root = (.ok (), t₂) := by
  constructor
  · rintro ⟨h, rfl⟩
    have hsplits := splits_split t mishaps blob bootKey rootKey
    rw [h] at hsplits
    generalize (t.split mishaps blob bootKey rootKey).tree = t' at hsplits
    cases hsplits with
    | @both bytes keys t₁ _ hread hdecode hboot hroot =>
        exact ⟨bytes, keys, t₁, hread, hdecode, hboot, hroot⟩
  · rintro ⟨bytes, keys, t₁, hread, hdecode, hboot, hroot⟩
    simp only [split, hread, hdecode, writing_of_ok hboot, writing_of_ok hroot]
    exact ⟨rfl, rfl⟩

/-- Whenever a split fails, for whatever reason, the files at the two paths
    are as they were, with one exception: if the blob was accepted and the
    boot key written, but the root key could not be, the file at the path
    for the boot key holds exactly the boot key of the blob.  Of all that
    was there this file is the only one that may be another. -/
theorem changesOnly_of_split_error (ht : t.WellFormed)
    (h : (t.split mishaps blob bootKey rootKey).result = .error e) :
    let t' := (t.split mishaps blob bootKey rootKey).tree
    ∃ places,
      t.ChangesOnly places (homesOf bootKey ++ homesOf rootKey) t' ∧
      (∀ q ∈ [bootKey, rootKey], ∀ loc mode contents, loc ∉ places →
        t.resolve q = .ok (loc, .file mode contents) →
        t'.resolve q = .ok (loc, .file mode contents)) ∧
      (places = [] ∨ ∃ loc bytes keys t₁ cause, places = [loc] ∧
        t.readSecret blob = .ok bytes ∧ KeyBlob.decode bytes = .ok keys ∧
        t.writeSecret (mishaps 0) bootKey keys.boot = (.ok (), t₁) ∧
        t₁.writeSecret (mishaps 1) rootKey keys.root = (.error cause, t') ∧
        t'.resolve bootKey = .ok (loc, .file 0o400 keys.boot)) := by
  intro t'
  have hleft := List.subset_append_left (homesOf bootKey) (homesOf rootKey)
  have hright := List.subset_append_right (homesOf bootKey) (homesOf rootKey)
  rcases split_eq_error h with heq |
    ⟨bytes, keys, hread, hdecode, ⟨cause, hboot⟩ | ⟨t₁, cause, hboot, hroot⟩⟩
  · have hchanges : t.ChangesOnly [] (homesOf bootKey ++ homesOf rootKey) t' := by
      rw [show t' = t from heq]
      exact .refl t _ _
    exact ⟨[], hchanges, fun q _ loc mode contents => hchanges.resolve_file, Or.inl rfl⟩
  · have hchanges := (changesOnly_of_writeSecret_error hboot).mono (List.Subset.refl _) hleft
    exact ⟨[], hchanges, fun q _ loc mode contents => hchanges.resolve_file, Or.inl rfl⟩
  · obtain ⟨loc, hresolve, hchangesBoot⟩ := changesOnly_of_writeSecret_ok ht hboot
    have hchangesRoot := changesOnly_of_writeSecret_error hroot
    have hchanges := (hchangesBoot.mono (List.Subset.refl _) hleft).trans
      (hchangesRoot.mono (List.nil_subset [loc]) hright)
    exact ⟨[loc], hchanges, fun q _ loc mode contents => hchanges.resolve_file,
      Or.inr ⟨loc, bytes, keys, t₁, cause, rfl, hread, hdecode, hboot, hroot,
        hchangesRoot.resolve_file List.not_mem_nil hresolve⟩⟩

/-- There is no room for the root key: of what was there, only the file at
    the path for the boot key is another. -/
theorem changesOnly_of_split_error_cabinet :
    cabinet.ChangesOnly [[Text.Utf8.encode "keys", Text.Utf8.encode "boot"]]
      (homesOf (.ofString "keys/boot") ++ homesOf (.ofString "keys/root"))
      (cabinet.split noRoomAtSecond (.ofString "blob") (.ofString "keys/boot")
        (.ofString "keys/root")).tree := by
  have hresult : (cabinet.split noRoomAtSecond (.ofString "blob") (.ofString "keys/boot")
      (.ofString "keys/root")).result
        = .error (.keyFile (.inaccessible (.ofString "keys/root") noRoom.fault)) := by
    decide +kernel
  have hold : cabinet.resolve (.ofString "keys/boot")
      = .ok ([Text.Utf8.encode "keys", Text.Utf8.encode "boot"], .file 0o644 [1]) := by
    decide +kernel
  have hnew : (cabinet.split noRoomAtSecond (.ofString "blob") (.ofString "keys/boot")
      (.ofString "keys/root")).tree.resolve (.ofString "keys/boot")
        = .ok ([Text.Utf8.encode "keys", Text.Utf8.encode "boot"], .file 0o400 [7]) := by
    decide +kernel
  obtain ⟨places, hchanges, hkeeps, rfl | ⟨loc, -, keys, -, -, rfl, -, -, -, -, hboot⟩⟩ :=
    changesOnly_of_split_error (by decide +kernel) hresult
  · have hsame := hkeeps _ List.mem_cons_self _ _ _ List.not_mem_nil hold
    rw [hnew] at hsame
    exact absurd hsame (by simp)
  · rw [hnew] at hboot
    simp only [Except.ok.injEq, Prod.mk.injEq] at hboot
    rw [hboot.1]
    exact hchanges

/-- A split replaces one key file and not the other when a directory is where
    the root key should be written. -/
theorem split_replaces_boot_only :
    let done := cabinet.split (fun _ => none) (.ofString "blob") (.ofString "keys/boot")
      (.ofString "keys")
    cabinet.WellFormed ∧
    done.result = .error (.keyFile (.inaccessible (.ofString "keys") .isDirectory)) ∧
    cabinet.resolve (.ofString "keys/boot")
      = .ok ([Text.Utf8.encode "keys", Text.Utf8.encode "boot"], .file 0o644 [1]) ∧
    done.tree.resolve (.ofString "keys/boot")
      = .ok ([Text.Utf8.encode "keys", Text.Utf8.encode "boot"], .file 0o400 [7]) := by
  decide +kernel

end DiskKeys.FileTree
