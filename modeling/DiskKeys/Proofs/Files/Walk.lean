import DiskKeys.Proofs.Attempt
import DiskKeys.Proofs.Files.Tree

/-! # Where paths lead in a tree that has changed

    A path is walked through directories, and only where the walk ends may
    anything else be.  So a tree that keeps the directories of another, and
    the one where relative paths start, is walked in the same way
    (`Keeps.walk`): a path leads to what it led to, as long as that is
    there (`Keeps.resolve`), and a place for something new is found where
    it was (`Keeps.leads`). -/

namespace DiskKeys.FileTree

variable {t t' : FileTree}

/-! ## Steps -/

/-- A step is taken from a directory. -/
theorem directory_of_child {dir loc : Location} {name : Name} (h : t.child dir name = .ok loc) :
    t.node? dir = some .directory := by
  unfold child at h
  exact not_not.mp (Except.guard_eq_ok.mp h).1

/-- A name that is not made of dots leads into its directory. -/
theorem child_eq_ok {dir loc : Location} {name : Name} (h : t.child dir name = .ok loc)
    (hhere : name ≠ Path.here) (habove : name ≠ Path.above) : loc = dir ++ [name] := by
  simp only [child, hhere, habove, if_false, Except.guard_eq_ok, Except.ok.injEq] at h
  exact h.2.2.symm

theorem walkStep_eq_ok {loc next : Location} {name : Name} :
    t.walkStep loc name = .ok next ↔ t.child loc name = .ok next ∧ t.node? next ≠ none := by
  simp only [walkStep, Except.bind_eq_ok, Except.throw_bind, Except.guard_eq_ok,
    Except.pure_eq_ok, Except.ok.injEq, Option.isNone_iff_eq_none]
  constructor
  · rintro ⟨next', hchild, hthere, rfl⟩
    exact ⟨hchild, hthere⟩
  · rintro ⟨hchild, hthere⟩
    exact ⟨next, hchild, hthere, rfl⟩

@[simp] theorem walk_nil (t : FileTree) (loc : Location) : t.walk loc [] = .ok loc := rfl

theorem walk_cons (t : FileTree) (loc : Location) (name : Name) (rest : List Name) :
    t.walk loc (name :: rest) = t.walkStep loc name >>= fun next => t.walk next rest :=
  List.foldlM_cons

theorem walk_concat (t : FileTree) (loc : Location) (names : List Name) (last : Name) :
    t.walk loc (names ++ [last]) = t.walk loc names >>= fun dir => t.walkStep dir last := by
  rw [walk, walk, List.foldlM_append]
  congr 1
  funext dir
  exact (t.walk_cons dir last []).trans (bind_pure _)

/-- A walk that goes somewhere, or stays in a directory, starts from one. -/
theorem directory_of_walk {loc last : Location} {names : List Name}
    (h : t.walk loc names = .ok last) (hmoves : names ≠ [] ∨ t.node? last = some .directory) :
    t.node? loc = some .directory := by
  cases names with
  | nil =>
      cases h
      exact hmoves.resolve_left fun hne => hne rfl
  | cons name rest =>
      rw [walk_cons] at h
      obtain ⟨next, hstep, -⟩ := Except.bind_eq_ok.mp h
      exact directory_of_child (walkStep_eq_ok.mp hstep).1

/-! ## Keeping directories -/

/-- Every directory of one tree is one of the other, and if relative paths
    start from a directory, they start from the same. -/
structure Keeps (t t' : FileTree) : Prop where
  directory : ∀ loc, t.node? loc = some .directory → t'.node? loc = some .directory
  cwd : t.node? t.cwd = some .directory → t'.cwd = t.cwd

namespace Keeps

protected theorem refl (t : FileTree) : t.Keeps t := ⟨fun _ h => h, fun _ => rfl⟩

protected theorem trans {t'' : FileTree} (h : t.Keeps t') (h' : t'.Keeps t'') : t.Keeps t'' where
  directory := fun loc hdir => h'.directory loc (h.directory loc hdir)
  cwd := by
    intro hdir
    have hcwd := h.cwd hdir
    rw [← hcwd]
    apply h'.cwd
    rw [hcwd]
    exact h.directory _ hdir

/-- Putting something where no directory is keeps them all. -/
protected theorem put (t : FileTree) {loc : Location} (hold : t.node? loc ≠ some .directory)
    (node : Node) : t.Keeps (t.put loc node) where
  directory := by
    intro loc' hdir
    rw [node?_put_of_ne]
    · exact hdir
    · rintro rfl
      exact hold hdir
  cwd := fun _ => rfl

theorem child (h : t.Keeps t') {dir loc : Location} {name : Name}
    (hchild : t.child dir name = .ok loc) : t'.child dir name = .ok loc := by
  have hdir := directory_of_child hchild
  unfold FileTree.child at hchild ⊢
  rw [if_neg (not_not.mpr hdir)] at hchild
  rw [if_neg (not_not.mpr (h.directory _ hdir))]
  exact hchild

/-- A walk ends where it ended, if something is there. -/
theorem walk (h : t.Keeps t') {loc last : Location} {names : List Name}
    (hwalk : t.walk loc names = .ok last) (hlast : t'.node? last ≠ none) :
    t'.walk loc names = .ok last := by
  induction names generalizing loc with
  | nil => exact hwalk
  | cons name rest ih =>
      rw [walk_cons] at hwalk ⊢
      obtain ⟨next, hstep, hrest⟩ := Except.bind_eq_ok.mp hwalk
      obtain ⟨hchild, -⟩ := walkStep_eq_ok.mp hstep
      refine Except.bind_eq_ok.mpr ⟨next, walkStep_eq_ok.mpr ⟨h.child hchild, ?_⟩, ih hrest⟩
      -- the walk goes on from a directory, unless it ends here
      by_cases hmoves : rest = []
      · subst hmoves
        cases hrest
        exact hlast
      · rw [h.directory _ (directory_of_walk hrest (Or.inl hmoves))]
        exact Option.some_ne_none _

theorem origin (h : t.Keeps t') {p : Path} (hdir : t.node? (t.origin p) = some .directory) :
    t'.origin p = t.origin p := by
  unfold FileTree.origin at hdir ⊢
  by_cases habs : p.isAbsolute = true
  · rw [if_pos habs, if_pos habs]
  · rw [if_neg habs] at hdir
    rw [if_neg habs, if_neg habs]
    exact h.cwd hdir

end Keeps

/-! ## Paths -/

theorem resolve_eq_ok {p : Path} {loc : Location} {node : Node} :
    t.resolve p = .ok (loc, node) ↔
      checkPath p = .ok () ∧ t.walk (t.origin p) p.steps = .ok loc ∧ t.node? loc = some node ∧
      ¬ (p.endsInSlash = true ∧ node ≠ .directory) := by
  simp only [resolve, Except.bind_eq_ok]
  constructor
  · rintro ⟨⟨⟩, hcheck, loc', hwalk, h⟩
    cases hnode : t.node? loc' with
    | none => simp [hnode] at h
    | some node' =>
        simp only [hnode, Except.throw_bind, Except.guard_eq_ok, Except.pure_eq_ok,
          Except.ok.injEq, Prod.mk.injEq] at h
        obtain ⟨hslash, rfl, rfl⟩ := h
        exact ⟨hcheck, hwalk, hnode, hslash⟩
  · rintro ⟨hcheck, hwalk, hnode, hslash⟩
    refine ⟨(), hcheck, loc, hwalk, ?_⟩
    simp only [hnode, Except.throw_bind, Except.guard_eq_ok]
    exact ⟨hslash, rfl⟩

/-- What a path names is there. -/
theorem node?_of_resolve {p : Path} {loc : Location} {node : Node}
    (h : t.resolve p = .ok (loc, node)) : t.node? loc = some node :=
  (resolve_eq_ok.mp h).2.2.1

/-- The last step of a path is a name in a directory that the steps before
    it lead to. -/
theorem resolveParent_eq_name {p : Path} {dir : Location} {name : Name} :
    t.resolveParent p = .ok (.name dir name) ↔
      checkPath p = .ok () ∧ (∃ before, p.steps = before ++ [name] ∧
        t.walk (t.origin p) before = .ok dir) ∧
      t.node? dir = some .directory ∧ name ≠ Path.here ∧ name ≠ Path.above := by
  simp only [resolveParent, Except.bind_eq_ok]
  constructor
  · rintro ⟨⟨⟩, hcheck, h⟩
    cases hlast : p.steps.getLast? with
    | none => simp [hlast] at h
    | some last =>
        simp only [hlast, Except.bind_eq_ok, Except.throw_bind, Except.guard_eq_ok] at h
        obtain ⟨dir', hwalk, hdir, h⟩ := h
        by_cases hdots : last = Path.here ∨ last = Path.above
        · simp [hdots] at h
        · simp only [hdots, if_false, Except.pure_eq_ok, Except.ok.injEq,
            LastStep.name.injEq] at h
          obtain ⟨rfl, rfl⟩ := h
          obtain ⟨before, hsteps⟩ := List.getLast?_eq_some_iff.mp hlast
          rw [hsteps, List.dropLast_concat] at hwalk
          exact ⟨hcheck, ⟨before, hsteps, hwalk⟩, not_not.mp hdir, not_or.mp hdots⟩
  · rintro ⟨hcheck, ⟨before, hsteps, hwalk⟩, hdir, hhere, habove⟩
    refine ⟨(), hcheck, ?_⟩
    simp only [hsteps, List.getLast?_concat, List.dropLast_concat, hwalk, Except.ok_bind, hdir,
      hhere, habove, ne_eq, not_true, if_false, or_self, Except.pure_eq_ok]

/-- The last step of a path is taken in a directory and is no dots. -/
theorem resolveParent_eq_ok {p : Path} {dir : Location} {name : Name}
    (h : t.resolveParent p = .ok (.name dir name)) :
    t.node? dir = some .directory ∧ name ≠ Path.here ∧ name ≠ Path.above :=
  (resolveParent_eq_name.mp h).2.2

/-- A path leads to a place in a directory, whether or not something is
    there. -/
def Leads (t : FileTree) (p : Path) (loc : Location) : Prop :=
  ∃ dir name, t.resolveParent p = .ok (.name dir name) ∧ t.child dir name = .ok loc

theorem Leads.eq_append {p : Path} {loc : Location} (h : t.Leads p loc) :
    ∃ dir name, loc = dir ++ [name] ∧ t.node? dir = some .directory := by
  obtain ⟨dir, name, hparent, hchild⟩ := h
  obtain ⟨hdir, hhere, habove⟩ := resolveParent_eq_ok hparent
  exact ⟨dir, name, child_eq_ok hchild hhere habove, hdir⟩

/-- What is at a place that a path leads to is what the path names. -/
theorem Leads.resolve {p : Path} {loc : Location} {node : Node} (h : t.Leads p loc)
    (hnode : t.node? loc = some node) (hslash : p.endsInSlash = true → node = .directory) :
    t.resolve p = .ok (loc, node) := by
  obtain ⟨dir, name, hparent, hchild⟩ := h
  obtain ⟨hcheck, ⟨before, hsteps, hwalk⟩, -⟩ := resolveParent_eq_name.mp hparent
  refine resolve_eq_ok.mpr ⟨hcheck, ?_, hnode, fun hfile => hfile.2 (hslash hfile.1)⟩
  rw [hsteps, walk_concat, hwalk]
  exact walkStep_eq_ok.mpr ⟨hchild, by rw [hnode]; exact Option.some_ne_none _⟩

/-- A place is found where it was. -/
theorem Keeps.leads (h : t.Keeps t') {p : Path} {loc : Location} (hleads : t.Leads p loc) :
    t'.Leads p loc := by
  obtain ⟨dir, name, hparent, hchild⟩ := hleads
  obtain ⟨hcheck, ⟨before, hsteps, hwalk⟩, hdir, hdots⟩ := resolveParent_eq_name.mp hparent
  refine ⟨dir, name, resolveParent_eq_name.mpr ⟨hcheck, ⟨before, hsteps, ?_⟩, ?_⟩, h.child hchild⟩
  · rw [h.origin (directory_of_walk hwalk (Or.inr hdir))]
    exact h.walk hwalk (by rw [h.directory _ hdir]; exact Option.some_ne_none _)
  · exact ⟨h.directory _ hdir, hdots⟩

/-- A path has steps, unless it is empty or starts at the root. -/
theorem steps_ne_nil {p : Path} (hcheck : checkPath p = .ok ()) (habs : p.isAbsolute = false) :
    p.steps ≠ [] := by
  cases hbytes : p.bytes with
  | nil => simp [checkPath, hbytes] at hcheck
  | cons b rest =>
      have hb : (b == Path.slash) = false := by simpa [Path.isAbsolute, hbytes] using habs
      -- the first piece holds the first byte
      obtain ⟨piece, pieces, hpieces⟩ :=
        List.exists_cons_of_ne_nil (List.splitOnP_ne_nil (· == Path.slash) rest)
      have hsplit : p.bytes.splitOn Path.slash = (b :: piece) :: pieces := by
        rw [hbytes, List.splitOn, List.splitOnP_cons_eq_if_modifyHead, hb, hpieces]
        rfl
      rw [Path.steps, hsplit]
      simp

namespace Keeps

variable {p : Path} {loc : Location}

/-- A path leads to where it led to, whatever is there now, unless the path
    says that it must be a directory. -/
theorem resolve_of_node? (h : t.Keeps t') {node node' : Node}
    (hresolve : t.resolve p = .ok (loc, node)) (hnode : t'.node? loc = some node')
    (hslash : ¬ (p.endsInSlash = true ∧ node' ≠ .directory)) :
    t'.resolve p = .ok (loc, node') := by
  obtain ⟨hcheck, hwalk, -, -⟩ := resolve_eq_ok.mp hresolve
  have horigin : t'.origin p = t.origin p := by
    by_cases habs : p.isAbsolute = true
    · rw [FileTree.origin, FileTree.origin, if_pos habs, if_pos habs]
    · exact h.origin (directory_of_walk hwalk (Or.inl (steps_ne_nil hcheck (by simpa using habs))))
  refine resolve_eq_ok.mpr ⟨hcheck, ?_, hnode, hslash⟩
  rw [horigin]
  exact h.walk hwalk (by rw [hnode]; exact Option.some_ne_none _)

/-- A path leads to what it led to, if that is still there. -/
theorem resolve (h : t.Keeps t') {node : Node} (hresolve : t.resolve p = .ok (loc, node))
    (hnode : t'.node? loc = some node) : t'.resolve p = .ok (loc, node) :=
  h.resolve_of_node? hresolve hnode (resolve_eq_ok.mp hresolve).2.2.2

/-- The path of a file leads to the file that has taken its place. -/
theorem resolve_file (h : t.Keeps t') {mode mode' : Nat} {contents contents' : Bytes}
    (hresolve : t.resolve p = .ok (loc, .file mode contents))
    (hnode : t'.node? loc = some (.file mode' contents')) :
    t'.resolve p = .ok (loc, .file mode' contents') := by
  refine h.resolve_of_node? hresolve hnode ?_
  rintro ⟨hslash, -⟩
  exact (resolve_eq_ok.mp hresolve).2.2.2 ⟨hslash, nofun⟩

end Keeps

end DiskKeys.FileTree
