import Mathlib.Data.Option.Basic
import DiskKeys.Files.Secret
import DiskKeys.Proofs.Attempt

/-! # Trees of one shape

    Two trees match if they have nodes of one kind at the same locations,
    files of the same mode among them; what else the nodes at a location
    have in common is left open (`Matches`).  A walk only asks where
    directories are, so that a path leads to the same location in both
    (`Matches.resolve`), and a read fails for the same reason or yields the
    contents of the two files at one location (`Matches.read`). -/

namespace DiskKeys

/-- Nodes of one kind; files of one mode may hold different bytes. -/
inductive Node.SameKind : Node → Node → Prop where
  | same (node : Node) : SameKind node node
  | files (mode : Nat) (contents contents' : Bytes) :
      SameKind (.file mode contents) (.file mode contents')

theorem Node.SameKind.eq_directory {node node' : Node} (h : node.SameKind node') :
    node' = .directory ↔ node = .directory := by
  cases h with
  | same => exact Iff.rfl
  | files mode contents contents' => exact ⟨nofun, nofun⟩

namespace FileTree

/-- Trees that differ in nothing but the bytes of files: they have the same
    paths, and files of the same modes. -/
structure SameShape (t t' : FileTree) : Prop where
  cwd : t.cwd = t'.cwd
  node : ∀ loc, Option.Rel Node.SameKind (t.node? loc) (t'.node? loc)

/-- Trees with nodes of one kind at the same locations, which are related
    besides. -/
structure Matches (r : Location → Node → Node → Prop) (t t' : FileTree) : Prop where
  cwd : t.cwd = t'.cwd
  node : ∀ loc, Option.Rel (fun node node' => node.SameKind node' ∧ r loc node node')
    (t.node? loc) (t'.node? loc)

namespace Matches

variable {r : Location → Node → Node → Prop} {t t' : FileTree}

theorem mono {s : Location → Node → Node → Prop} (h : t.Matches r t')
    (hs : ∀ loc node node', r loc node node' → s loc node node') : t.Matches s t' where
  cwd := h.cwd
  node := by
    intro loc
    have hrel := h.node loc
    generalize t.node? loc = x, t'.node? loc = y at hrel ⊢
    cases hrel with
    | none => exact .none
    | some hnode => exact .some ⟨hnode.1, hs loc _ _ hnode.2⟩

theorem node_cases (h : t.Matches r t') (loc : Location) :
    (t.node? loc = none ∧ t'.node? loc = none) ∨
    ∃ node node', t.node? loc = some node ∧ t'.node? loc = some node' ∧
      node.SameKind node' ∧ r loc node node' := by
  have hrel := h.node loc
  generalize t.node? loc = x, t'.node? loc = y at hrel ⊢
  cases hrel with
  | none => exact Or.inl ⟨rfl, rfl⟩
  | some hnode => exact Or.inr ⟨_, _, rfl, rfl, hnode⟩

theorem isNone_node? (h : t.Matches r t') (loc : Location) :
    (t'.node? loc).isNone = (t.node? loc).isNone := by
  rcases h.node_cases loc with ⟨hnone, hnone'⟩ | ⟨node, node', hsome, hsome', -⟩
  · rw [hnone, hnone']
  · rw [hsome, hsome']
    rfl

theorem node?_eq_directory (h : t.Matches r t') (loc : Location) :
    t'.node? loc = some .directory ↔ t.node? loc = some .directory := by
  rcases h.node_cases loc with ⟨hnone, hnone'⟩ | ⟨node, node', hsome, hsome', hkind, -⟩
  · rw [hnone, hnone']
  · rw [hsome, hsome', Option.some_inj, Option.some_inj, hkind.eq_directory]

theorem child (h : t.Matches r t') (dir : Location) (name : Name) :
    t'.child dir name = t.child dir name := by
  simp only [FileTree.child, ne_eq, h.node?_eq_directory]

theorem walk (h : t.Matches r t') (loc : Location) (names : List Name) :
    t'.walk loc names = t.walk loc names := by
  have hstep : t'.walkStep = t.walkStep := by
    funext loc name
    simp only [walkStep, h.child, h.isNone_node?]
  rw [FileTree.walk, FileTree.walk, hstep]

theorem origin (h : t.Matches r t') (p : Path) : t'.origin p = t.origin p := by
  rw [FileTree.origin, FileTree.origin, h.cwd]

/-- A path leads to the same location, and to nodes that are related. -/
theorem resolve (h : t.Matches r t') (p : Path) :
    (t.resolve p).Alike (fun x y => x.1 = y.1 ∧ x.2.SameKind y.2 ∧ r x.1 x.2 y.2)
      (t'.resolve p) := by
  refine .bind (.of_eq rfl) ?_
  rintro _ _ -
  refine .bind (.of_eq (by rw [h.origin, h.walk])) ?_
  rintro loc _ rfl
  rcases h.node_cases loc with ⟨hnone, hnone'⟩ | ⟨node, node', hsome, hsome', hkind, hnode⟩
  · rw [hnone, hnone']
    exact .error _
  · rw [hsome, hsome']
    -- of the node it only matters whether it is a directory
    simp only [ne_eq, hkind.eq_directory]
    by_cases hslash : p.endsInSlash = true ∧ ¬ node = .directory
    · rw [if_pos hslash, if_pos hslash]
      exact .error _
    · rw [if_neg hslash, if_neg hslash]
      exact .ok ⟨rfl, hkind, hnode⟩

theorem resolveParent (h : t.Matches r t') (p : Path) :
    t'.resolveParent p = t.resolveParent p := by
  simp only [FileTree.resolveParent, h.origin, h.walk, ne_eq, h.node?_eq_directory]

theorem isDirectory (h : t.Matches r t') (p : Path) : t'.isDirectory p = t.isDirectory p := by
  unfold FileTree.isDirectory
  have hrel := h.resolve p
  generalize t.resolve p = x, t'.resolve p = y at hrel ⊢
  cases hrel with
  | error e => rfl
  | @ok found found' hfound =>
      obtain ⟨loc, node⟩ := found
      obtain ⟨loc', node'⟩ := found'
      obtain ⟨hloc, hkind, -⟩ := hfound
      cases hloc
      cases hkind with
      | same => rfl
      | files => rfl

/-! ## Reading -/

/-- A read fails for the same reason, or yields the contents of files that
    are related. -/
theorem read (h : t.Matches r t') (p : Path) :
    (t.read p).Alike
      (fun contents contents' => ∃ loc mode, r loc (.file mode contents) (.file mode contents'))
      (t'.read p) := by
  have hfile : ∀ {loc mode} {contents contents' : Bytes},
      r loc (.file mode contents) (.file mode contents') →
      Except.Alike
        (fun contents contents' => ∃ loc mode, r loc (.file mode contents) (.file mode contents'))
        (if ownerMayRead mode then pure contents else throw .permissionDenied : Except Fault Bytes)
        (if ownerMayRead mode then pure contents' else throw .permissionDenied) := by
    intro loc mode contents contents' hnode
    by_cases hmay : ownerMayRead mode = true
    · rw [if_pos hmay, if_pos hmay]
      exact .ok ⟨loc, mode, hnode⟩
    · rw [if_neg hmay, if_neg hmay]
      exact .error _
  refine .bind (h.resolve p) ?_
  rintro ⟨loc, node⟩ ⟨_, node'⟩ ⟨rfl, hkind, hnode⟩
  cases hkind with
  | same =>
      cases node with
      | directory => exact .error _
      | file mode contents => exact hfile hnode
      | socket id => exact .error _
  | files mode contents contents' => exact hfile hnode

theorem readSecret (h : t.Matches r t') (p : Path) :
    (t.readSecret p).Alike
      (fun contents contents' => ∃ loc mode, r loc (.file mode contents) (.file mode contents'))
      (t'.readSecret p) :=
  (h.read p).mapError _

end Matches

end FileTree

end DiskKeys
