import Mathlib.Data.List.Nodup
import Mathlib.Data.List.Perm.Subperm
import Mathlib.Tactic.ByContra
import DiskKeys.Proofs.Files.Secret
import DiskKeys.Proofs.Text.Decimal
import DiskKeys.Proofs.Text.Utf8

/-! # Writing a secret again

    Where a secret has been written another can be written, unless the
    device fails.  The directory is there, and making it again changes
    nothing (`makeDirectories_of_directory`); of more names than a tree has
    entries one is free, so there is a draft (`exists_createDraft`); and no
    directory is in the place to which the path leads, so the draft can be
    renamed (`exists_renameNode`).  All of this stays so in a tree that
    keeps the directories (`Keeps.accepts`). -/

namespace DiskKeys.FileTree

variable {t t' : FileTree} {p : Path} {secret : Bytes}

/-! ## The directory -/

/-- A path that names something ends in dots, or in a name that leads
    there. -/
theorem resolveParent_of_resolve {loc : Location} {node : Node} (h : t.resolve p = .ok (loc, node)) :
    t.resolveParent p = .ok .dots ∨
      ∃ dir name, t.resolveParent p = .ok (.name dir name) ∧ t.child dir name = .ok loc := by
  obtain ⟨hcheck, hwalk, -, -⟩ := resolve_eq_ok.mp h
  cases hlast : p.steps.getLast? with
  | none =>
      refine Or.inl ?_
      simp only [resolveParent, hcheck, hlast, Except.ok_bind, Except.pure_eq_ok]
  | some last =>
      obtain ⟨before, hsteps⟩ := List.getLast?_eq_some_iff.mp hlast
      rw [hsteps, walk_concat] at hwalk
      obtain ⟨dir, hbefore, hstep⟩ := Except.bind_eq_ok.mp hwalk
      obtain ⟨hchild, -⟩ := walkStep_eq_ok.mp hstep
      have hdir := directory_of_child hchild
      by_cases hdots : last = Path.here ∨ last = Path.above
      · refine Or.inl ?_
        simp only [resolveParent, hcheck, hsteps, List.getLast?_concat, List.dropLast_concat,
          hbefore, hdir, hdots, Except.ok_bind, Except.pure_eq_ok, ne_eq, not_true, if_false,
          if_true]
      · exact Or.inr ⟨dir, last, resolveParent_eq_name.mpr
          ⟨hcheck, ⟨before, hsteps, hbefore⟩, hdir, not_or.mp hdots⟩, hchild⟩

/-- A directory that is there is not made anew. -/
theorem makeDirectory_of_directory {loc : Location} (h : t.resolve p = .ok (loc, .directory)) :
    t.makeDirectory p = .error .alreadyExists := by
  rcases resolveParent_of_resolve h with hdots | ⟨dir, name, hname, hchild⟩
  · rw [makeDirectory, hdots]
    rfl
  · rw [makeDirectory, hname]
    show (t.child dir name >>= fun loc => _) = _
    rw [hchild, Except.ok_bind, node?_of_resolve h]
    rfl

theorem tryDirectory_of_directory {loc : Location} (refused : Path → Option Fault)
    (h : t.resolve p = .ok (loc, .directory)) :
    t.tryDirectory refused p = .error .alreadyExists := by
  rw [tryDirectory, makeDirectory_of_directory h]
  rfl

/-- So the device cannot refuse it either. -/
theorem makeDirectories_of_directory {loc : Location} (refused : Path → Option Fault)
    (h : t.resolve p = .ok (loc, .directory)) : t.makeDirectories refused p = (.ok (), t) := by
  have hsettle : makeDirectoriesFrom.settle p t .alreadyExists = (.ok (), t) := by
    rw [makeDirectoriesFrom.settle, isDirectory, h]
    rfl
  have hattempt : ∀ failed, failed .alreadyExists = (.ok (), t) →
      makeDirectoriesFrom.attempt t refused p failed = (.ok (), t) := by
    intro failed hfailed
    unfold makeDirectoriesFrom.attempt
    rw [tryDirectory_of_directory refused h]
    by_cases hempty : p.bytes.isEmpty = true
    · rw [if_pos hempty]
    · rw [if_neg hempty]
      exact hfailed
  unfold makeDirectories
  cases p.ancestors with
  | nil => exact hattempt _ hsettle
  | cons parent above => exact hattempt _ hsettle

/-! ## The draft -/

theorem draftName_inj {n m : Nat} : draftName n = draftName m ↔ n = m := by
  rw [draftName, draftName, Text.Utf8.encode_inj]
  show ".tmp" ++ n.repr = ".tmp" ++ m.repr ↔ n = m
  rw [String.append_right_inj, ← String.toList_inj, Nat.toList_repr, Nat.toList_repr,
    Text.toDigits_inj]

/-- Not all names that are tried can be taken. -/
theorem exists_freshName (t : FileTree) (dir : Location) : ∃ name, t.freshName? dir = some name := by
  rw [← Option.ne_none_iff_exists']
  intro hnone
  have hplaces : ((List.range (t.entries.length + 1)).map fun n => dir ++ [draftName n]).Nodup := by
    refine List.Nodup.map ?_ List.nodup_range
    intro n m heq
    exact draftName_inj.mp (by simpa using heq)
  have htaken : ((List.range (t.entries.length + 1)).map fun n => dir ++ [draftName n])
      ⊆ t.entries.map Prod.fst := by
    intro loc hloc
    obtain ⟨n, hn, rfl⟩ := List.mem_map.mp hloc
    have hthere : t.node? (dir ++ [draftName n]) ≠ none := by
      simpa using List.find?_eq_none.mp hnone _ (List.mem_map_of_mem hn)
    obtain ⟨e, he, heq⟩ := exists_mem_of_node?_ne_none (by simp) hthere
    exact List.mem_map.mpr ⟨e, he, heq⟩
  have hcount := (List.subperm_of_subset hplaces htaken).length_le
  rw [List.length_map, List.length_map, List.length_range] at hcount
  omega

theorem exists_createDraft {dir : Path} {loc : Location}
    (h : t.resolve dir = .ok (loc, .directory)) :
    ∃ drafted, t.createDraft none dir = .ok drafted := by
  obtain ⟨name, hname⟩ := t.exists_freshName loc
  rw [createDraft, h]
  simp only [Except.ok_bind, hname]
  exact ⟨_, rfl⟩

/-! ## The rename -/

/-- A file can be renamed to a path that leads to no directory. -/
theorem exists_renameNode (ht : t.WellFormed) {src dst : Location} {mode : Nat} {contents : Bytes}
    (hsrc : t.node? src = some (.file mode contents)) (hleads : t.Leads p dst)
    (hdst : t.node? dst ≠ some .directory) (hslash : p.endsInSlash = false) :
    ∃ renamed, t.renameNode src p false = .ok renamed := by
  obtain ⟨dir, name, hparent, hchild⟩ := hleads
  have hzero : ¬ p.bytes.contains 0 = true := by
    have hcheck := (resolveParent_eq_name.mp hparent).1
    unfold checkPath at hcheck
    exact (Except.guard_eq_ok.mp hcheck).1
  have habove : ¬ (dst ≠ src ∧ dst.isPrefixOf src = true) := by
    rintro ⟨hne, hprefix⟩
    obtain ⟨rest, rfl⟩ := List.isPrefixOf_iff_prefix.mp hprefix
    have hrest : rest ≠ [] := by
      rintro rfl
      exact hne (List.append_nil dst).symm
    -- the file would lie in what it replaces
    exact hdst (ht.directory_of_append hrest (by rw [hsrc]; exact nofun))
  have htarget : t.renameTarget src p false = .ok dst := by
    simp only [renameTarget, hzero, hparent, hchild, hsrc, hslash, habove, hdst, Except.ok_bind,
      Except.pure_eq_ok, if_false, Bool.false_eq_true, or_self]
  exact ⟨_, by rw [renameNode, htarget]; rfl⟩

/-! ## All together -/

/-- A path in a directory that leads to a place where no directory is. -/
structure Accepts (t : FileTree) (p : Path) : Prop where
  home : ∃ loc, t.resolve (homeOf p) = .ok (loc, .directory)
  place : ∃ loc, t.Leads p loc ∧ t.node? loc ≠ some .directory
  endsInSlash : p.endsInSlash = false

/-- A secret can be written there, if the device fails at nothing. -/
theorem exists_writeSecret_ok (ht : t.WellFormed) (h : t.Accepts p) (secret : Bytes) :
    ∃ t', t.writeSecret none p secret = (.ok (), t') := by
  obtain ⟨home, hhome⟩ := h.home
  obtain ⟨loc, hleads, hloc⟩ := h.place
  obtain ⟨⟨drafted, place⟩, hdraft⟩ := exists_createDraft hhome
  obtain ⟨dir, name, rfl, hresolve, hfree, rfl⟩ := createDraft_eq_ok hdraft
  have hdir := node?_of_resolve hresolve
  have hold : t.node? (dir ++ [name]) ≠ some .directory := by
    rw [hfree]
    exact nofun
  have hloc' : (t.put (dir ++ [name]) (.file secretMode secret)).node? loc ≠ some .directory := by
    by_cases heq : loc = dir ++ [name]
    · rw [heq, node?_put_self]
      exact nofun
    · rwa [node?_put_of_ne t _ heq]
  obtain ⟨⟨renamed, dst⟩, hrename⟩ := exists_renameNode (ht.put hdir hold _)
    (node?_put_self _ _ _ _) ((Keeps.put t hold _).leads hleads) hloc' h.endsInSlash
  have hplace : (t.put (dir ++ [name]) (.file secretMode secret)).placeDraft none (dir ++ [name]) p
      = .ok renamed := Except.map_eq_ok.mpr ⟨_, hrename, rfl⟩
  refine ⟨renamed, ?_⟩
  simp only [writeSecret, makeDirectories_of_directory _ hhome, hdraft, fillDraft, put_put, hplace]

theorem Written.accepts (h : Written t p secret (.ok ()) t') (ht : t.WellFormed) :
    t'.Accepts p := by
  cases h with
  | @replaced home dst name _ hfree hhome hrename =>
      have hdir := node?_of_resolve hhome
      have hold : t.node? (home ++ [name]) ≠ some .directory := by
        rw [hfree]
        exact nofun
      obtain ⟨hkeeps, -, hresolve, -⟩ :=
        renameNode_file (ht.put hdir hold _) (node?_put_self _ _ _ _) hrename
      obtain ⟨dst', htarget, heq⟩ := Except.bind_eq_ok.mp hrename
      obtain ⟨hleads, hslash, -⟩ := renameTarget_file (node?_put_self _ _ _ _) htarget
      obtain rfl : dst' = dst := congrArg Prod.snd (Except.ok.inj heq)
      have hkeeps' := (Keeps.put t hold (.file secretMode secret)).trans hkeeps
      exact
        { home := ⟨home, hkeeps'.resolve hhome (hkeeps'.directory home hdir)⟩
          place := ⟨dst', hkeeps.leads hleads, by rw [node?_of_resolve hresolve]; exact nofun⟩
          endsInSlash := hslash }

theorem accepts_of_writeSecret_ok (ht : t.WellFormed) {mishap : Option Mishap}
    (h : t.writeSecret mishap p secret = (.ok (), t')) : t'.Accepts p := by
  have hwritten := written_writeSecret t mishap p secret
  rw [h] at hwritten
  exact hwritten.accepts (wellFormed_makeDirectories ht _ _)

/-- Another secret can be written where a file is, if one could be written
    before. -/
theorem Keeps.accepts (h : t.Keeps t') (haccepts : t.Accepts p) {loc : Location} {mode : Nat}
    {contents : Bytes} (hfile : t'.resolve p = .ok (loc, .file mode contents)) : t'.Accepts p := by
  obtain ⟨home, hhome⟩ := haccepts.home
  obtain ⟨place, hleads, -⟩ := haccepts.place
  refine ⟨⟨home, h.resolve hhome (h.directory home (node?_of_resolve hhome))⟩,
    ⟨place, h.leads hleads, ?_⟩, haccepts.endsInSlash⟩
  intro hdir
  rw [(h.leads hleads).resolve hdir fun _ => rfl] at hfile
  exact nomatch hfile

/-- A secret that is written where a file is takes its place. -/
theorem changesOnly_of_rewrite (ht : t.WellFormed) {loc : Location} {mode : Nat} {contents : Bytes}
    (hfile : t.resolve p = .ok (loc, .file mode contents)) {mishap : Option Mishap}
    (h : t.writeSecret mishap p secret = (.ok (), t')) :
    t'.resolve p = .ok (loc, .file secretMode secret) ∧ t.ChangesOnly [loc] (homesOf p) t' := by
  obtain ⟨loc', hresolve, hchanges⟩ := changesOnly_of_writeSecret_ok ht h
  obtain rfl : loc' = loc := by
    by_contra hne
    have hold := hchanges.resolve_file (by simpa using Ne.symm hne) hfile
    rw [hresolve] at hold
    cases hold
    exact hne rfl
  exact ⟨hresolve, hchanges⟩

end DiskKeys.FileTree
