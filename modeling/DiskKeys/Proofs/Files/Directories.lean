import DiskKeys.Proofs.Files.Operations

/-! # Making directories

    Whatever becomes of making a directory and those above it, it comes to
    making some of them, one after the other (`makeDirectoriesFrom_rel`):
    so what holds of one new directory, and carries over from step to step,
    holds of them all.  In this way nothing that was there changes, and all
    that is new is a directory to which one of the paths leads
    (`changesOnly_makeDirectories`). -/

namespace DiskKeys.FileTree

variable {t t' t'' : FileTree}

/-! ## Changes -/

/-- What was done to a tree changed at most what is at some places, and
    other than that it only added directories to which some paths lead. -/
structure ChangesOnly (t : FileTree) (places : List Location) (paths : List Path)
    (t' : FileTree) : Prop where
  keeps : t.Keeps t'
  node : ∀ loc, loc ∉ places → t'.node? loc = t.node? loc ∨
    (t.node? loc = none ∧ t'.node? loc = some .directory ∧
      ∃ p ∈ paths, t'.resolve p = .ok (loc, .directory))

namespace ChangesOnly

variable {places places' : List Location} {paths paths' : List Path}

protected theorem refl (t : FileTree) (places : List Location) (paths : List Path) :
    t.ChangesOnly places paths t :=
  ⟨.refl t, fun _ _ => Or.inl rfl⟩

theorem mono (h : t.ChangesOnly places paths t') (hplaces : places ⊆ places')
    (hpaths : paths ⊆ paths') : t.ChangesOnly places' paths' t' where
  keeps := h.keeps
  node := by
    intro loc hloc
    rcases h.node loc (fun hmem => hloc (hplaces hmem)) with hsame | ⟨hnone, hdir, p, hp, hleads⟩
    · exact Or.inl hsame
    · exact Or.inr ⟨hnone, hdir, p, hpaths hp, hleads⟩

/-- One change after the other changes no more than both. -/
protected theorem trans (h : t.ChangesOnly places paths t')
    (h' : t'.ChangesOnly places paths t'') : t.ChangesOnly places paths t'' where
  keeps := h.keeps.trans h'.keeps
  node := by
    intro loc hloc
    rcases h'.node loc hloc with hsame' | ⟨hnone', hdir', hnew'⟩
    · rcases h.node loc hloc with hsame | ⟨hnone, hdir, p, hp, hleads⟩
      · exact Or.inl (hsame'.trans hsame)
      · -- a directory that was new at first is still found by its path
        rw [hdir] at hsame'
        exact Or.inr ⟨hnone, hsame', p, hp, h'.keeps.resolve hleads hsame'⟩
    · rcases h.node loc hloc with hsame | ⟨-, hdir, -⟩
      · exact Or.inr ⟨hsame.symm.trans hnone', hdir', hnew'⟩
      · exact nomatch hdir.symm.trans hnone'

/-- Elsewhere every file is as it was, and there are no others. -/
theorem node?_eq_file (h : t.ChangesOnly places paths t') {loc : Location} (hloc : loc ∉ places)
    (mode : Nat) (contents : Bytes) :
    t'.node? loc = some (.file mode contents) ↔ t.node? loc = some (.file mode contents) := by
  rcases h.node loc hloc with hsame | ⟨hnone, hdir, -⟩
  · rw [hsame]
  · rw [hnone, hdir]
    exact ⟨nofun, nofun⟩

/-- A path that names a file elsewhere still names it, and the file is as it
    was. -/
theorem resolve_file (h : t.ChangesOnly places paths t') {q : Path} {loc : Location} {mode : Nat}
    {contents : Bytes} (hloc : loc ∉ places) (hq : t.resolve q = .ok (loc, .file mode contents)) :
    t'.resolve q = .ok (loc, .file mode contents) :=
  h.keeps.resolve hq ((h.node?_eq_file hloc mode contents).mpr (node?_of_resolve hq))

end ChangesOnly

/-! ## New directories -/

/-- A new directory is all that changes, and its path leads to it. -/
theorem changesOnly_makeDirectory {p : Path} (h : t.makeDirectory p = .ok t') :
    t.ChangesOnly [] [p] t' := by
  obtain ⟨loc, hleads, hnone, rfl⟩ := leads_of_makeDirectory h
  obtain ⟨dir, name, rfl, -⟩ := hleads.eq_append
  have hkeeps : t.Keeps (t.put (dir ++ [name]) .directory) :=
    .put t (by rw [hnone]; exact nofun) .directory
  have hnode := node?_put_self t dir name .directory
  refine ⟨hkeeps, ?_⟩
  intro loc _
  by_cases heq : loc = dir ++ [name]
  · rw [heq]
    exact Or.inr ⟨hnone, hnode, p, List.mem_singleton.mpr rfl,
      (hkeeps.leads hleads).resolve hnode fun _ => rfl⟩
  · exact Or.inl (node?_put_of_ne t _ heq)

theorem wellFormed_makeDirectory {p : Path} (h : t.makeDirectory p = .ok t')
    (ht : t.WellFormed) : t'.WellFormed := by
  obtain ⟨dir, name, hdir, hnone, rfl⟩ := makeDirectory_eq_ok h
  exact ht.put hdir (by rw [hnone]; exact nofun) .directory

theorem tryDirectory_eq_ok {refused : Path → Option Fault} {p : Path}
    (h : t.tryDirectory refused p = .ok t') : t.makeDirectory p = .ok t' := by
  obtain ⟨made, hmade, h⟩ := Except.bind_eq_ok.mp h
  cases hrefused : refused p with
  | some fault => rw [hrefused] at h; exact nomatch h
  | none => rw [hrefused] at h; cases h; exact hmade

/-- Making a directory and those above it comes to making some of them in
    turn, also when it fails. -/
theorem makeDirectoriesFrom_rel {r : FileTree → FileTree → Prop} {paths : List Path}
    (hrefl : ∀ t, r t t) (htrans : ∀ t t' t'', r t t' → r t' t'' → r t t'')
    (hmake : ∀ t t' p, p ∈ paths → t.makeDirectory p = .ok t' → r t t') (t : FileTree)
    (refused : Path → Option Fault) {p : Path} {above : List Path} (hp : p ∈ paths)
    (habove : above ⊆ paths) : r t (t.makeDirectoriesFrom refused p above).2 := by
  -- if the directory could be made at once, or need not be, the rest does not matter
  have hattempt : ∀ {p : Path} (failed : Fault → Except Fault Unit × FileTree), p ∈ paths →
      (∀ e, r t (failed e).2) → r t (makeDirectoriesFrom.attempt t refused p failed).2 := by
    intro p failed hp hfailed
    unfold makeDirectoriesFrom.attempt
    by_cases hempty : p.bytes.isEmpty = true
    · rw [if_pos hempty]
      exact hrefl t
    · rw [if_neg hempty]
      cases hmade : t.tryDirectory refused p with
      | ok t' => exact hmake t t' p hp (tryDirectory_eq_ok hmade)
      | error e => exact hfailed e
  induction above generalizing p with
  | nil =>
      refine hattempt _ hp ?_
      intro e
      by_cases he : e = .noEntry
      · rw [if_pos he]
        exact hrefl t
      · rw [if_neg he]
        exact hrefl t
  | cons parent above ih =>
      refine hattempt _ hp ?_
      intro e
      by_cases he : e = .noEntry
      · rw [if_pos he]
        have hparents := ih (habove List.mem_cons_self)
          (List.Subset.trans (List.subset_cons_self _ _) habove)
        generalize t.makeDirectoriesFrom refused parent above = made at hparents
        obtain ⟨result, t'⟩ := made
        cases result with
        | error e => exact hparents
        | ok u =>
            dsimp only
            cases hmade : t'.tryDirectory refused p with
            | ok t'' =>
                exact htrans t t' t'' hparents (hmake t' t'' p hp (tryDirectory_eq_ok hmade))
            | error e => exact hparents
      · rw [if_neg he]
        exact hrefl t

/-- Making a directory and those above it changes nothing that was there;
    what is new are directories to which these paths lead. -/
theorem changesOnly_makeDirectories (t : FileTree) (refused : Path → Option Fault) (p : Path) :
    t.ChangesOnly [] (p :: p.ancestors) (t.makeDirectories refused p).2 := by
  refine makeDirectoriesFrom_rel (r := fun t t' => t.ChangesOnly [] (p :: p.ancestors) t')
    (fun t => .refl t _ _) (fun _ _ _ h h' => h.trans h') ?_ t refused List.mem_cons_self
    (List.subset_cons_self _ _)
  intro t t' q hq hmade
  exact (changesOnly_makeDirectory hmade).mono (List.Subset.refl _)
    (List.cons_subset.mpr ⟨hq, List.nil_subset _⟩)

theorem wellFormed_makeDirectories (ht : t.WellFormed) (refused : Path → Option Fault) (p : Path) :
    (t.makeDirectories refused p).2.WellFormed := by
  refine makeDirectoriesFrom_rel (r := fun t t' => t.WellFormed → t'.WellFormed)
    (fun _ h => h) (fun _ _ _ h h' ht => h' (h ht)) ?_ t refused List.mem_cons_self
    (List.subset_cons_self _ _) ht
  intro t t' q _ hmade
  exact wellFormed_makeDirectory hmade

end DiskKeys.FileTree
