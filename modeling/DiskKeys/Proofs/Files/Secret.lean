import DiskKeys.Files.Secret
import DiskKeys.Proofs.Files.Directories

/-! # Replacing a file by a secret

    Once its directories are made, writing a secret has three ends
    (`Written`), whatever the device fails at: no draft could be made, or
    the draft was taken away again because it could not be finished or
    could not take its path, or it took its path.  A draft lies where
    nothing was, so taking it away restores what there was
    (`Written.unchanged_of_error`); and a rename moves it onto its path and
    changes nothing besides (`renameNode_file`).  So a write replaces the
    file at its path by the secret, or leaves every file as it was
    (`writeSecret_atomic`). -/

namespace DiskKeys.FileTree

variable {t t' : FileTree}

/-! ## Drafts -/

/-- Of two nodes that are put at a location one after the other, the second
    stays. -/
theorem put_put (t : FileTree) (loc : Location) (node node' : Node) :
    (t.put loc node).put loc node' = t.put loc node' := by
  simp [put, erase, List.filter_filter]

/-- A draft is put into the directory that a path names, where nothing was. -/
theorem createDraft_eq_ok {mishap : Option Mishap} {dir : Path} {loc : Location}
    (h : t.createDraft mishap dir = .ok (t', loc)) :
    ∃ home name, loc = home ++ [name] ∧ t.resolve dir = .ok (home, .directory) ∧
      t.node? loc = none ∧ t' = t.put loc (.file draftMode []) := by
  obtain ⟨⟨home, node⟩, hresolve, h⟩ := Except.bind_eq_ok.mp h
  cases node with
  | file mode contents => exact nomatch h
  | socket id => exact nomatch h
  | directory =>
      cases hmishap : Mishap.at? mishap .create with
      | some fault => simp [hmishap] at h
      | none =>
          cases hname : t.freshName? home with
          | none => simp [hmishap, hname] at h
          | some name =>
              simp only [hmishap, hname, Except.pure_eq_ok, Except.ok.injEq, Prod.mk.injEq] at h
              obtain ⟨rfl, rfl⟩ := h
              have hfree := List.find?_some hname
              exact ⟨home, name, rfl, hresolve, by simpa using hfree, rfl⟩

/-- A draft stays a file, and one that was filled holds the secret. -/
theorem fillDraft_eq (mishap : Option Mishap) (secret : Bytes) :
    (∃ e mode contents, fillDraft mishap secret = (.error e, .file mode contents)) ∨
    fillDraft mishap secret = (.ok (), .file secretMode secret) := by
  unfold fillDraft
  split
  · exact Or.inl ⟨_, _, _, rfl⟩
  · exact Or.inl ⟨_, _, _, rfl⟩
  · exact Or.inl ⟨_, _, _, rfl⟩
  · exact Or.inl ⟨_, _, _, rfl⟩
  · exact Or.inr rfl

/-- A draft takes its path by a rename. -/
theorem placeDraft_eq_ok {mishap : Option Mishap} {loc : Location} {p : Path}
    (h : t.placeDraft mishap loc p = .ok t') : ∃ dst, t.renameNode loc p false = .ok (t', dst) := by
  unfold placeDraft at h
  cases hmishap : Mishap.at? mishap .rename with
  | some fault => rw [hmishap] at h; exact nomatch h
  | none =>
      rw [hmishap] at h
      obtain ⟨⟨_, dst⟩, hrename, rfl⟩ := Except.map_eq_ok.mp h
      exact ⟨dst, hrename⟩

/-- Taking away what was put where nothing was leaves all as it was. -/
theorem node?_erase_put {loc : Location} (hne : loc ≠ []) (hfree : t.node? loc = none) (node : Node)
    (loc' : Location) : ((t.put loc node).erase loc).node? loc' = t.node? loc' := by
  by_cases heq : loc' = loc
  · rw [heq, node?_erase _ _ _ hne, if_pos rfl, hfree]
  · rw [node?_erase_of_ne _ heq, node?_put_of_ne _ _ heq]

/-! ## Moving a file -/

/-- Moving a file takes it from one place to the other and touches nothing
    else. -/
theorem node?_move_file (ht : t.WellFormed) {src dir : Location} {name : Name}
    (h : t.Movable src dir name) (hsrc : t.node? src ≠ some .directory) (loc : Location) :
    (t.move src (dir ++ [name])).node? loc
      = if loc = dir ++ [name] then t.node? src else if loc = src then none else t.node? loc := by
  by_cases hdst : dir ++ [name] <+: loc
  · obtain ⟨rest, rfl⟩ := hdst
    rw [node?_move_append h]
    by_cases hnil : rest = []
    · rw [hnil, List.append_nil, List.append_nil, if_pos rfl]
    · -- nothing is below the file, and nothing was below what it replaces
      have hne : dir ++ [name] ++ rest ≠ dir ++ [name] := by simpa using hnil
      have hne' : dir ++ [name] ++ rest ≠ src := fun heq => h.notAbove ⟨rest, heq⟩
      rw [if_neg hne, if_neg hne', ht.nothingBelow_of_ne hsrc rest hnil,
        h.nothingBelow rest hnil]
  · have hne : loc ≠ dir ++ [name] := fun heq => hdst (heq ▸ List.prefix_refl _)
    rw [if_neg hne]
    by_cases hpre : src <+: loc
    · rw [node?_move_src h.ne_nil hpre hdst]
      by_cases heq : loc = src
      · rw [if_pos heq]
      · obtain ⟨rest, rfl⟩ := hpre
        rw [if_neg heq, ht.nothingBelow_of_ne hsrc rest (by simpa using heq)]
    · have hne' : loc ≠ src := fun heq => hpre (heq ▸ List.prefix_refl _)
      rw [if_neg hne', node?_move_of_not_below hpre hdst]

theorem Keeps.move_file (ht : t.WellFormed) {src dir : Location} {name : Name}
    (h : t.Movable src dir name) (hsrc : t.node? src ≠ some .directory)
    (hdst : t.node? (dir ++ [name]) ≠ some .directory) : t.Keeps (t.move src (dir ++ [name])) where
  directory := by
    intro loc hdir
    have hne : loc ≠ dir ++ [name] := fun heq => hdst (heq ▸ hdir)
    have hne' : loc ≠ src := fun heq => hsrc (heq ▸ hdir)
    rw [node?_move_file ht h hsrc, if_neg hne, if_neg hne', hdir]
  cwd := by
    intro hdir
    -- a directory is not within a file
    refine moved_of_not_below _ ?_
    rintro ⟨rest, hrest⟩
    by_cases hnil : rest = []
    · rw [hnil, List.append_nil] at hrest
      exact hsrc (hrest ▸ hdir)
    · rw [← hrest, ht.nothingBelow_of_ne hsrc rest hnil] at hdir
      exact nomatch hdir

/-- A file is renamed only to a place that the path leads to, where no
    directory is. -/
theorem renameTarget_file {src dst : Location} {p : Path} {mode : Nat} {contents : Bytes}
    (hsrc : t.node? src = some (.file mode contents))
    (h : t.renameTarget src p false = .ok dst) :
    t.Leads p dst ∧ p.endsInSlash = false ∧ t.node? dst ≠ some .directory := by
  obtain ⟨-, h⟩ := Except.guard_eq_ok.mp h
  obtain ⟨last, hparent, h⟩ := Except.bind_eq_ok.mp h
  cases last with
  | dots => exact nomatch h
  | name dir name =>
      simp only [hsrc, Except.bind_eq_ok, Except.throw_bind, Except.guard_eq_ok,
        Except.pure_eq_ok, Except.ok.injEq, Bool.false_eq_true, false_or] at h
      obtain ⟨loc, hchild, hslash, -, hdst, rfl⟩ := h
      exact ⟨⟨dir, name, hparent, hchild⟩, by simpa using hslash, hdst⟩

/-- A file that is renamed is what its new path names, and nothing else is
    touched. -/
theorem renameNode_file (ht : t.WellFormed) {src dst : Location} {p : Path} {mode : Nat}
    {contents : Bytes} (hsrc : t.node? src = some (.file mode contents))
    (h : t.renameNode src p false = .ok (t', dst)) :
    t.Keeps t' ∧ t'.WellFormed ∧ t'.resolve p = .ok (dst, .file mode contents) ∧
      ∀ loc, loc ≠ dst → t'.node? loc = if loc = src then none else t.node? loc := by
  obtain ⟨dst', htarget, heq⟩ := Except.bind_eq_ok.mp h
  obtain ⟨hleads, hslash, hdst⟩ := renameTarget_file hsrc htarget
  have hnoSlash : p.endsInSlash = true → Node.file mode contents = .directory :=
    fun htrue => nomatch hslash.symm.trans htrue
  have hfile : t.node? src ≠ some .directory := by
    rw [hsrc]
    exact nofun
  cases heq
  by_cases hne : dst = src
  · -- the draft already is where it belongs
    rw [if_pos hne]
    refine ⟨.refl t, ht, hleads.resolve (hne ▸ hsrc) hnoSlash, ?_⟩
    intro loc hloc
    rw [if_neg (hne ▸ hloc)]
  · rw [if_neg hne]
    obtain ⟨dir, name, rfl, hmovable⟩ := movable_of_renameTarget ht htarget hne
    have hkeeps := Keeps.move_file ht hmovable hfile hdst
    have hnode := node?_move_file ht hmovable hfile
    refine ⟨hkeeps, ht.move hmovable, ?_, ?_⟩
    · refine (hkeeps.leads hleads).resolve ?_ hnoSlash
      rw [hnode, if_pos rfl, hsrc]
    · intro loc hloc
      rw [hnode, if_neg hloc]

/-! ## Writing -/

/-- What becomes of a tree when a secret is to be written in it and the
    directories for it have been made. -/
inductive Written (t : FileTree) (p : Path) (secret : Bytes) :
    Except KeyFileError Unit → FileTree → Prop where
  /-- There is no draft. -/
  | refused (e : KeyFileError) : Written t p secret (.error e) t
  /-- The draft was taken away again. -/
  | withdrawn (e : KeyFileError) {home : Location} {name : Name} (mode : Nat) (contents : Bytes)
      (hfree : t.node? (home ++ [name]) = none)
      (hhome : t.resolve (homeOf p) = .ok (home, .directory)) :
      Written t p secret (.error e)
        ((t.put (home ++ [name]) (.file mode contents)).erase (home ++ [name]))
  /-- The draft took its path. -/
  | replaced {home dst : Location} {name : Name} {t' : FileTree}
      (hfree : t.node? (home ++ [name]) = none)
      (hhome : t.resolve (homeOf p) = .ok (home, .directory))
      (hrename : (t.put (home ++ [name]) (.file secretMode secret)).renameNode
        (home ++ [name]) p false = .ok (t', dst)) :
      Written t p secret (.ok ()) t'

/-- Writing makes the directories first, as far as the device allows it, and
    then comes to one of these ends. -/
theorem written_writeSecret (t : FileTree) (mishap : Option Mishap) (p : Path) (secret : Bytes) :
    Written (t.makeDirectories (Mishap.at? mishap <| .directory ·) (homeOf p)).2 p secret
      (t.writeSecret mishap p secret).1 (t.writeSecret mishap p secret).2 := by
  obtain ⟨made, t₁, hmade⟩ : ∃ made t₁,
      t.makeDirectories (Mishap.at? mishap <| .directory ·) (homeOf p) = (made, t₁) :=
    ⟨_, _, rfl⟩
  cases made with
  | error e =>
      simp only [writeSecret, hmade]
      exact .refused _
  | ok u =>
      cases hdraft : t₁.createDraft mishap (homeOf p) with
      | error e =>
          simp only [writeSecret, hmade, hdraft]
          exact .refused _
      | ok drafted =>
          obtain ⟨d, loc⟩ := drafted
          obtain ⟨home, name, rfl, hhome, hfree, rfl⟩ := createDraft_eq_ok hdraft
          rcases fillDraft_eq mishap secret with ⟨e, mode, contents, hfill⟩ | hfill
          · simp only [writeSecret, hmade, hdraft, hfill, put_put]
            exact .withdrawn _ mode contents hfree hhome
          · cases hplace : (t₁.put (home ++ [name]) (.file secretMode secret)).placeDraft mishap
                (home ++ [name]) p with
            | error e =>
                simp only [writeSecret, hmade, hdraft, hfill, put_put, hplace]
                exact .withdrawn _ secretMode secret hfree hhome
            | ok placed =>
                obtain ⟨dst, hrename⟩ := placeDraft_eq_ok hplace
                simp only [writeSecret, hmade, hdraft, hfill, put_put, hplace]
                exact .replaced hfree hhome hrename

/-- The paths to the directory in which a path ends and to those above. -/
def homesOf (p : Path) : List Path :=
  homeOf p :: (homeOf p).ancestors

namespace Written

variable {p : Path} {secret : Bytes} {e : KeyFileError}

theorem wellFormed {result : Except KeyFileError Unit} (h : Written t p secret result t')
    (ht : t.WellFormed) : t'.WellFormed := by
  have hdraft : ∀ {home : Location} {name : Name} (node : Node),
      t.node? (home ++ [name]) = none → t.resolve (homeOf p) = .ok (home, .directory) →
      (t.put (home ++ [name]) node).WellFormed :=
    fun node hfree hhome => ht.put (node?_of_resolve hhome) (by rw [hfree]; exact nofun) node
  cases h with
  | refused e => exact ht
  | withdrawn e mode contents hfree hhome =>
      refine (hdraft _ hfree hhome).erase ((hdraft _ hfree hhome).nothingBelow_of_ne ?_)
      rw [node?_put_self]
      exact nofun
  | replaced hfree hhome hrename =>
      exact (renameNode_file (hdraft _ hfree hhome) (node?_put_self _ _ _ _) hrename).2.1

/-- Whichever step a write failed at, the tree is as it was when the
    directories had been made. -/
theorem unchanged_of_error (h : Written t p secret (.error e) t') :
    t'.cwd = t.cwd ∧ ∀ loc, t'.node? loc = t.node? loc := by
  cases h with
  | refused e => exact ⟨rfl, fun _ => rfl⟩
  | withdrawn e mode contents hfree hhome =>
      exact ⟨rfl, node?_erase_put (by simp) hfree (.file mode contents)⟩

theorem changesOnly_of_error (h : Written t p secret (.error e) t') (paths : List Path) :
    t.ChangesOnly [] paths t' := by
  obtain ⟨hcwd, hnode⟩ := h.unchanged_of_error
  exact ⟨⟨fun loc hdir => (hnode loc).trans hdir, fun _ => hcwd⟩, fun loc _ => Or.inl (hnode loc)⟩

/-- A write that succeeded has put the secret where its path leads. -/
theorem changesOnly_of_ok (h : Written t p secret (.ok ()) t') (ht : t.WellFormed)
    (paths : List Path) :
    ∃ loc, t'.resolve p = .ok (loc, .file secretMode secret) ∧ t.ChangesOnly [loc] paths t' := by
  cases h with
  | @replaced home dst name _ hfree hhome hrename =>
      have hold : t.node? (home ++ [name]) ≠ some .directory := by
        rw [hfree]
        exact nofun
      obtain ⟨hkeeps, -, hresolve, hnode⟩ :=
        renameNode_file (ht.put (node?_of_resolve hhome) hold _) (node?_put_self _ _ _ _) hrename
      refine ⟨dst, hresolve, (Keeps.put t hold _).trans hkeeps, ?_⟩
      intro loc hloc
      rw [hnode loc (by simpa using hloc)]
      by_cases heq : loc = home ++ [name]
      · rw [if_pos heq, heq, hfree]
        exact Or.inl rfl
      · rw [if_neg heq, node?_put_of_ne _ _ heq]
        exact Or.inl rfl

end Written

theorem wellFormed_writeSecret (ht : t.WellFormed) (mishap : Option Mishap) (p : Path)
    (secret : Bytes) : (t.writeSecret mishap p secret).2.WellFormed :=
  (written_writeSecret t mishap p secret).wellFormed (wellFormed_makeDirectories ht _ _)

theorem WellFormed.of_writeSecret (ht : t.WellFormed) {mishap : Option Mishap} {p : Path}
    {secret : Bytes} {result : Except KeyFileError Unit}
    (h : t.writeSecret mishap p secret = (result, t')) : t'.WellFormed := by
  have hwritten := wellFormed_writeSecret ht mishap p secret
  rwa [h] at hwritten

/-- A write that fails leaves every file as it was. -/
theorem changesOnly_of_writeSecret_error {mishap : Option Mishap} {p : Path} {secret : Bytes}
    {e : KeyFileError} (h : t.writeSecret mishap p secret = (.error e, t')) :
    t.ChangesOnly [] (homesOf p) t' := by
  have hwritten := written_writeSecret t mishap p secret
  rw [h] at hwritten
  exact (changesOnly_makeDirectories t _ (homeOf p)).trans (hwritten.changesOnly_of_error _)

/-- A write that succeeds leaves every file but the one at its path as it
    was. -/
theorem changesOnly_of_writeSecret_ok (ht : t.WellFormed) {mishap : Option Mishap} {p : Path}
    {secret : Bytes} (h : t.writeSecret mishap p secret = (.ok (), t')) :
    ∃ loc, t'.resolve p = .ok (loc, .file secretMode secret) ∧
      t.ChangesOnly [loc] (homesOf p) t' := by
  have hwritten := written_writeSecret t mishap p secret
  rw [h] at hwritten
  obtain ⟨loc, hresolve, hchanges⟩ :=
    hwritten.changesOnly_of_ok (wellFormed_makeDirectories ht _ _) (homesOf p)
  refine ⟨loc, hresolve, ?_⟩
  exact ((changesOnly_makeDirectories t _ (homeOf p)).mono (List.nil_subset _)
    (List.Subset.refl _)).trans hchanges

/-- What a path names is read, if the owner may. -/
theorem readSecret_of_resolve {p : Path} {loc : Location} {mode : Nat} {contents : Bytes}
    (h : t.resolve p = .ok (loc, .file mode contents)) (hmode : ownerMayRead mode = true) :
    t.readSecret p = .ok contents := by
  rw [readSecret, read, h, Except.ok_bind]
  simp only [hmode, if_true]
  rfl

/-- A tree with a blob, and a directory in which a boot key is that anyone
    may read. -/
def cabinet : FileTree :=
  ((empty.put [Text.Utf8.encode "keys"] .directory).put
    [Text.Utf8.encode "keys", Text.Utf8.encode "boot"] (.file 0o644 [1])).put
    [Text.Utf8.encode "blob"] (.file 0o644 [2, 0, 1, 0, 1, 0, 7, 2, 0, 1, 0, 8])

/-- The device has no room for the bytes of a secret. -/
def noRoom : Mishap := ⟨.write 0, .device (Fault.numbered "No space left on device" 28)⟩

end DiskKeys.FileTree
