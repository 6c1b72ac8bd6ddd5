import Mathlib.Logic.Function.Basic
import DiskKeys.Proofs.Files.Path
import DiskKeys.Proofs.Files.Secret

/-! # Secrets in a directory

    A plain name that is joined to the path of a directory names what is in
    that directory under this name, wherever the path leads
    (`enters_of_resolve_join`).  The directories that are made on the way
    to it lie on the way to the directory (`passes_of_mem_homesOf`).  So a
    secret that is written there is a direct child of the directory, and of
    the files it is the only one that changes (`inside_of_writeSecret_ok`,
    `file?_of_writeSecret_ok`). -/

namespace DiskKeys.FileTree

variable {t t' : FileTree} {dir : Path} {name : Name} {loc home : Location}

/-! ## Where a directory is -/

/-- The steps of a path lead to a directory.  Unlike `resolve` this finds
    the working directory by the empty path, to which names are joined as
    to any other. -/
def Enters (t : FileTree) (dir : Path) (home : Location) : Prop :=
  t.walk (t.origin dir) dir.steps = .ok home ∧ t.node? home = some .directory

/-- The first steps of a path, or all of them, lead to a location. -/
def Passes (t : FileTree) (dir : Path) (loc : Location) : Prop :=
  ∃ steps, steps <+: dir.steps ∧ t.walk (t.origin dir) steps = .ok loc

theorem Keeps.enters (h : t.Keeps t') (henters : t.Enters dir home) : t'.Enters dir home := by
  obtain ⟨hwalk, hdir⟩ := henters
  have hdir' := h.directory home hdir
  refine ⟨?_, hdir'⟩
  rw [h.origin (directory_of_walk hwalk (Or.inr hdir))]
  exact h.walk hwalk (by rw [hdir']; exact Option.some_ne_none _)

theorem Enters.unique {home' : Location} (h : t.Enters dir home) (h' : t.Enters dir home') :
    home = home' :=
  Except.ok.inj (h.1.symm.trans h'.1)

theorem origin_eq_of_isAbsolute_eq {p q : Path} (h : p.isAbsolute = q.isAbsolute) :
    t.origin p = t.origin q := by
  rw [origin, origin, h]

/-- What a name joined to a path names is in the directory that the path
    leads to. -/
theorem enters_of_resolve_join (hname : Path.IsPlain name) {node : Node}
    (h : t.resolve (dir.join ⟨name⟩) = .ok (loc, node)) :
    ∃ home, t.Enters dir home ∧ loc = home ++ [name] := by
  obtain ⟨-, hwalk, -⟩ := resolve_eq_ok.mp h
  rw [Path.steps_join hname, origin_eq_of_isAbsolute_eq (Path.isAbsolute_join hname dir),
    walk_concat] at hwalk
  obtain ⟨home, hhome, hstep⟩ := Except.bind_eq_ok.mp hwalk
  obtain ⟨hchild, -⟩ := walkStep_eq_ok.mp hstep
  exact ⟨home, ⟨hhome, directory_of_child hchild⟩,
    child_eq_ok hchild hname.ne_here hname.ne_above⟩

/-! ## On the way to it -/

theorem steps_dot : (Path.ofString ".").steps = [Path.here] := by decide +kernel

/-- The directory in which a joined name lies is the one that it is joined
    to, or the working directory under its own name. -/
theorem along_homeOf_join (hname : Path.IsPlain name) (dir : Path) :
    (homeOf (dir.join ⟨name⟩)).Along dir ∨
      (homeOf (dir.join ⟨name⟩) = .ofString "." ∧ dir.isAbsolute = false) := by
  unfold homeOf Path.parent?
  rw [Path.ancestors_join hname]
  cases hhead : dir.reaches.head? with
  | none => simp [Path.reaches] at hhead
  | some parent =>
      have halong := Path.along_of_mem_reaches (List.mem_of_head? hhead)
      by_cases hempty : parent.bytes = []
      · refine Or.inr ⟨by simp [hempty], ?_⟩
        rw [← halong.isAbsolute, Path.isAbsolute, hempty]
        rfl
      · exact Or.inl (by simpa [hempty] using halong)

theorem walk_of_along_dot {q : Path} (hq : q.Along (.ofString "."))
    (hwalk : t.walk t.cwd q.steps = .ok loc) : loc = t.cwd := by
  have hsteps := hq.steps
  rw [steps_dot, List.prefix_cons_iff] at hsteps
  rcases hsteps with hnil | ⟨rest, hrest, hpre⟩
  · rw [hnil] at hwalk
    exact (Except.ok.inj hwalk).symm
  · rw [hrest, List.prefix_nil.mp hpre, walk_cons] at hwalk
    obtain ⟨next, hstep, hdone⟩ := Except.bind_eq_ok.mp hwalk
    obtain ⟨hchild, -⟩ := walkStep_eq_ok.mp hstep
    unfold child at hchild
    obtain ⟨-, hchild⟩ := Except.guard_eq_ok.mp hchild
    rw [if_pos rfl] at hchild
    rw [← Except.ok.inj hdone, ← Except.ok.inj hchild]

/-- The paths that are made for a joined name lie on the way to the
    directory. -/
theorem passes_of_mem_homesOf (hname : Path.IsPlain name) {q : Path}
    (hq : q ∈ homesOf (dir.join ⟨name⟩)) {node : Node} (h : t.resolve q = .ok (loc, node)) :
    t.Passes dir loc := by
  obtain ⟨-, hwalk, -⟩ := resolve_eq_ok.mp h
  have halong : q.Along (homeOf (dir.join ⟨name⟩)) := by
    rcases List.mem_cons.mp hq with rfl | habove
    · exact .refl _
    · exact Path.along_of_mem_ancestors habove
  rcases along_homeOf_join hname dir with hdir | ⟨hdot, habs⟩
  · have hq := halong.trans hdir
    rw [origin_eq_of_isAbsolute_eq hq.isAbsolute] at hwalk
    exact ⟨q.steps, hq.steps, hwalk⟩
  · -- all that can be made for the working directory is that directory itself
    rw [hdot] at halong
    have horigin : t.origin dir = t.cwd := by
      rw [origin, habs]
      rfl
    have hdotOrigin : t.origin (.ofString ".") = t.cwd := by
      rw [origin, show (Path.ofString ".").isAbsolute = false by decide +kernel]
      rfl
    rw [origin_eq_of_isAbsolute_eq halong.isAbsolute, hdotOrigin] at hwalk
    have hloc := walk_of_along_dot halong hwalk
    refine ⟨[], List.nil_prefix, ?_⟩
    rw [horigin, hloc]
    rfl

/-! ## Files -/

/-- The permission bits and the contents of the file at a location. -/
def file? (t : FileTree) (loc : Location) : Option (Nat × Bytes) :=
  match t.node? loc with
  | some (.file mode contents) => some (mode, contents)
  | _ => none

theorem file?_eq_some {mode : Nat} {contents : Bytes} :
    t.file? loc = some (mode, contents) ↔ t.node? loc = some (.file mode contents) := by
  unfold file?
  split
  · rename_i h
    rw [h]
    simp
  · rename_i h
    exact ⟨nofun, fun hfile => absurd hfile (h mode contents)⟩

theorem ChangesOnly.file?_eq {places : List Location} {paths : List Path}
    (h : t.ChangesOnly places paths t') (hloc : loc ∉ places) : t'.file? loc = t.file? loc := by
  rcases h.node loc hloc with hsame | ⟨hnone, hdir, -⟩
  · rw [file?, file?, hsame]
  · rw [file?, file?, hnone, hdir]

/-- A secret that was written under a joined name is in the directory. -/
theorem inside_of_writeSecret_ok (ht : t.WellFormed) (hname : Path.IsPlain name)
    {mishap : Option Mishap} {secret : Bytes}
    (h : t.writeSecret mishap (dir.join ⟨name⟩) secret = (.ok (), t')) :
    ∃ home, t'.Enters dir home ∧
      t'.resolve (dir.join ⟨name⟩) = .ok (home ++ [name], .file secretMode secret) ∧
      t.ChangesOnly [home ++ [name]] (homesOf (dir.join ⟨name⟩)) t' := by
  obtain ⟨loc, hresolve, hchanges⟩ := changesOnly_of_writeSecret_ok ht h
  obtain ⟨home, henters, rfl⟩ := enters_of_resolve_join hname hresolve
  exact ⟨home, henters, hresolve, hchanges⟩

/-- Of the files only the one at the path of the secret is another. -/
theorem file?_of_writeSecret_ok {secret : Bytes} {p : Path} {paths : List Path}
    (hresolve : t'.resolve p = .ok (loc, .file secretMode secret))
    (hchanges : t.ChangesOnly [loc] paths t') :
    t'.file? = Function.update t.file? loc (some (secretMode, secret)) := by
  funext loc'
  by_cases heq : loc' = loc
  · rw [heq, Function.update_self]
    exact file?_eq_some.mpr (node?_of_resolve hresolve)
  · rw [Function.update_of_ne heq]
    exact hchanges.file?_eq (by simpa using heq)

end DiskKeys.FileTree
