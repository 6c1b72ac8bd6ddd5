import DiskKeys.World
import DiskKeys.Proofs.Files.Walk

/-! # What operations on paths do to a tree

    An operation that succeeds puts, erases or moves one node, and it has
    made sure that this leaves no node hanging in the air: what is put or
    moved gets a directory to lie in, and what is erased or replaced has
    nothing below it.  Each lemma says of one operation what it did, so
    that no later proof walks a path. -/

namespace DiskKeys.FileTree

/-- An operation that refuses dots goes on with a name in a directory. -/
theorem name_of_bind_eq_ok {β : Type} {t : FileTree} {p : Path} {f : LastStep → Except Fault β}
    {b : β} (h : (t.resolveParent p >>= f) = .ok b) (hdots : f .dots ≠ .ok b) :
    ∃ dir name, t.node? dir = some .directory ∧
      (∀ {loc}, t.child dir name = .ok loc → loc = dir ++ [name]) ∧ f (.name dir name) = .ok b := by
  obtain ⟨last, hparent, h⟩ := Except.bind_eq_ok.mp h
  cases last with
  | dots => exact absurd h hdots
  | name dir name =>
      obtain ⟨hdir, hhere, habove⟩ := resolveParent_eq_ok hparent
      exact ⟨dir, name, hdir, fun hchild => child_eq_ok hchild hhere habove, h⟩

/-! ## Putting -/

/-- A write puts a file where no directory was. -/
theorem write_eq_ok {t t' : FileTree} {p : Path} {contents : Bytes} {loc : Location}
    (h : t.write p contents = .ok (t', loc)) :
    ∃ dir name mode, loc = dir ++ [name] ∧ t.node? dir = some .directory ∧
      t.node? loc ≠ some .directory ∧ t' = t.put loc (.file mode contents) := by
  obtain ⟨dir, name, hdir, hplace, h⟩ := name_of_bind_eq_ok h nofun
  obtain ⟨loc', hchild, h⟩ := Except.bind_eq_ok.mp h
  have hloc := hplace hchild
  cases hnode : t.node? loc' with
  | none =>
      simp only [hnode, Except.throw_bind, Except.guard_eq_ok, Except.pure_eq_ok,
        Except.ok.injEq, Prod.mk.injEq] at h
      obtain ⟨-, rfl, rfl⟩ := h
      exact ⟨dir, name, plainMode, hloc, hdir, by rw [hnode]; exact nofun, rfl⟩
  | some node =>
      cases node with
      | directory => simp [hnode] at h
      | socket id => simp [hnode] at h
      | file mode old =>
          simp only [hnode, Except.throw_bind, Except.guard_eq_ok, Except.pure_eq_ok,
            Except.ok.injEq, Prod.mk.injEq] at h
          obtain ⟨-, -, rfl, rfl⟩ := h
          exact ⟨dir, name, mode, hloc, hdir, by rw [hnode]; exact nofun, rfl⟩

/-- A new directory is put at the place that its path leads to, where
    nothing was. -/
theorem leads_of_makeDirectory {t t' : FileTree} {p : Path} (h : t.makeDirectory p = .ok t') :
    ∃ loc, t.Leads p loc ∧ t.node? loc = none ∧ t' = t.put loc .directory := by
  obtain ⟨last, hparent, h⟩ := Except.bind_eq_ok.mp h
  cases last with
  | dots => exact nomatch h
  | name dir name =>
      simp only [Except.bind_eq_ok, Except.throw_bind, Except.guard_eq_ok, Except.pure_eq_ok,
        Except.ok.injEq] at h
      obtain ⟨loc, hchild, hnone, rfl⟩ := h
      exact ⟨loc, ⟨dir, name, hparent, hchild⟩, by simpa using hnone, rfl⟩

theorem makeDirectory_eq_ok {t t' : FileTree} {p : Path} (h : t.makeDirectory p = .ok t') :
    ∃ dir name, t.node? dir = some .directory ∧ t.node? (dir ++ [name]) = none ∧
      t' = t.put (dir ++ [name]) .directory := by
  obtain ⟨loc, hleads, hnone, rfl⟩ := leads_of_makeDirectory h
  obtain ⟨dir, name, rfl, hdir⟩ := hleads.eq_append
  exact ⟨dir, name, hdir, hnone, rfl⟩

/-- A new socket is put where nothing was, if it is put anywhere. -/
theorem bind_eq_ok {w w' : World} {p : Path} (h : w.bind p = .ok w') :
    w'.tree = w.tree ∨ ∃ dir name id, w.tree.node? dir = some .directory ∧
      w.tree.node? (dir ++ [name]) = none ∧
      w'.tree = w.tree.put (dir ++ [name]) (.socket id) := by
  rw [World.bind] at h
  by_cases hempty : p.bytes.isEmpty = true
  · simp only [hempty, if_true, Except.pure_eq_ok, Except.ok.injEq] at h
    exact Or.inl (by rw [← h])
  · rw [if_neg hempty] at h
    obtain ⟨-, -, h⟩ := Except.bind_eq_ok.mp h
    obtain ⟨dir, name, hdir, hplace, h⟩ := name_of_bind_eq_ok h nofun
    simp only [Except.bind_eq_ok, Except.throw_bind, Except.guard_eq_ok, Except.pure_eq_ok,
      Except.ok.injEq] at h
    obtain ⟨loc, hchild, hnone, -, rfl⟩ := h
    obtain rfl := hplace hchild
    exact Or.inr ⟨dir, name, w.sockets.length, hdir, by simpa using hnone, rfl⟩

/-! ## Erasing -/

/-- What is removed is no directory. -/
theorem remove_eq_ok {t t' : FileTree} {p : Path} {loc : Location}
    (h : t.remove p = .ok (t', loc)) :
    t.node? loc ≠ some .directory ∧ t' = t.erase loc := by
  obtain ⟨dir, name, -, -, h⟩ := name_of_bind_eq_ok h nofun
  obtain ⟨loc', -, h⟩ := Except.bind_eq_ok.mp h
  have hdone : t.node? loc' ≠ some .directory ∧ (t.erase loc', loc') = (t', loc) := by
    split at h
    · exact nomatch h
    · exact nomatch h
    · rename_i node hnode hsome
      simp only [Except.throw_bind, Except.guard_eq_ok, Except.pure_eq_ok, Except.ok.injEq] at h
      exact ⟨fun hdir => hnode (Option.some.inj (hsome.symm.trans hdir)), h.2⟩
  obtain ⟨hnode, heq⟩ := hdone
  cases heq
  exact ⟨hnode, rfl⟩

/-- A directory is removed only if it is empty. -/
theorem removeDirectory_eq_ok {t t' : FileTree} {p : Path} {loc : Location}
    (h : t.removeDirectory p = .ok (t', loc)) :
    t.names loc = [] ∧ t' = t.erase loc := by
  obtain ⟨dir, name, -, -, h⟩ := name_of_bind_eq_ok h nofun
  obtain ⟨loc', -, h⟩ := Except.bind_eq_ok.mp h
  have hdone : t.names loc' = [] ∧ (t.erase loc', loc') = (t', loc) := by
    split at h
    · exact nomatch h
    · simp only [Except.throw_bind, Except.guard_eq_ok, Except.pure_eq_ok, Except.ok.injEq] at h
      exact ⟨by simpa using h.1, h.2⟩
    · exact nomatch h
  obtain ⟨hnames, heq⟩ := hdone
  cases heq
  exact ⟨hnames, rfl⟩

/-! ## Moving -/

/-- What is checked before a node is renamed: there is a directory for it
    that is not its own, and unless it stays where it is, it replaces
    nothing that it lies in and no directory that holds something. -/
theorem renameTarget_eq_ok {t : FileTree} {src dst : Location} {p : Path} {srcInSlash : Bool}
    (h : t.renameTarget src p srcInSlash = .ok dst) :
    ∃ dir name, dst = dir ++ [name] ∧ t.node? dir = some .directory ∧ t.node? src ≠ none ∧
      (t.node? src = some .directory → ¬ src <+: dir) ∧
      (dst ≠ src → ¬ dst <+: src ∧ (t.node? dst = some .directory → t.names dst = [])) := by
  obtain ⟨-, h⟩ := Except.guard_eq_ok.mp h
  obtain ⟨dir, name, hdir, hplace, h⟩ := name_of_bind_eq_ok h nofun
  obtain ⟨loc, hchild, h⟩ := Except.bind_eq_ok.mp h
  have hloc := hplace hchild
  split at h
  · exact nomatch h
  · -- a directory
    rename_i hsrc
    simp only [Except.throw_bind, Except.guard_eq_ok, List.isPrefixOf_iff_prefix] at h
    obtain ⟨hinside, habove, h⟩ := h
    have hdone : loc = dst ∧
        (loc ≠ src → t.node? loc = some .directory → t.names loc = []) := by
      split at h
      · rename_i hfree
        exact ⟨Except.ok.inj h, fun _ hold => nomatch hfree.symm.trans hold⟩
      · obtain ⟨hempty, h⟩ := Except.guard_eq_ok.mp h
        exact ⟨Except.ok.inj h, fun hne _ => by simpa [hne] using hempty⟩
      · exact nomatch h
    obtain ⟨rfl, hnames⟩ := hdone
    refine ⟨dir, name, hloc, hdir, by rw [hsrc]; exact nofun, fun _ => hinside, ?_⟩
    exact fun hne => ⟨fun hpre => habove ⟨hne, hpre⟩, hnames hne⟩
  · -- anything else
    rename_i node hnode hsrc
    simp only [Except.throw_bind, Except.guard_eq_ok, List.isPrefixOf_iff_prefix,
      Except.pure_eq_ok, Except.ok.injEq] at h
    obtain ⟨-, habove, hold, rfl⟩ := h
    refine ⟨dir, name, hloc, hdir, by rw [hsrc]; exact nofun, ?_, ?_⟩
    · exact fun hdirectory => absurd (Option.some.inj (hsrc.symm.trans hdirectory)) hnode
    · exact fun hne => ⟨fun hpre => habove ⟨hne, hpre⟩, fun hdirectory => absurd hdirectory hold⟩

/-- A node that is renamed to another place can move there. -/
theorem movable_of_renameTarget {t : FileTree} (ht : t.WellFormed) {src dst : Location} {p : Path}
    {srcInSlash : Bool} (h : t.renameTarget src p srcInSlash = .ok dst) (hne : dst ≠ src) :
    ∃ dir name, dst = dir ++ [name] ∧ t.Movable src dir name := by
  obtain ⟨dir, name, rfl, hdir, -, hinside, hreplaced⟩ := renameTarget_eq_ok h
  obtain ⟨habove, hnames⟩ := hreplaced hne
  refine ⟨dir, name, rfl, ?_⟩
  exact
    { directory := hdir
      nothingBelow := by
        by_cases hold : t.node? (dir ++ [name]) = some .directory
        · exact ht.nothingBelow_of_names (hnames hold)
        · exact ht.nothingBelow_of_ne hold
      notInside := by
        intro hpre
        rcases List.prefix_concat_iff.mp hpre with heq | hpre
        · exact hne heq.symm
        · -- what the new directory lies in is itself a directory
          have hsrcDir : t.node? src = some .directory := by
            obtain ⟨rest, rfl⟩ := hpre
            by_cases hnil : rest = []
            · rwa [hnil, List.append_nil] at hdir
            · exact ht.directory_of_append hnil (by rw [hdir]; exact Option.some_ne_none _)
          exact hinside hsrcDir hpre
      notAbove := habove }

/-- A rename moves a node, or leaves it where it is. -/
theorem rename_eq_ok {t : FileTree} (ht : t.WellFormed) {old new : Path} {r : Renamed}
    (h : t.rename old new = .ok r) :
    (r.dst = r.src ∧ r.tree = t) ∨
      ∃ dir name, r.dst = dir ++ [name] ∧ t.Movable r.src dir name ∧
        r.tree = t.move r.src r.dst := by
  obtain ⟨dir, name, -, -, h⟩ := name_of_bind_eq_ok h nofun
  simp only [renameNode, Except.bind_eq_ok, Except.pure_eq_ok, Except.ok.injEq] at h
  obtain ⟨src, -, -, ⟨dst, htarget, rfl⟩, rfl⟩ := h
  by_cases hne : dst = src
  · exact Or.inl ⟨hne, if_pos hne⟩
  · obtain ⟨dir', name', hdst, hmovable⟩ := movable_of_renameTarget ht htarget hne
    exact Or.inr ⟨dir', name', hdst, hmovable, if_neg hne⟩

end DiskKeys.FileTree
