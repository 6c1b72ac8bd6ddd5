import Mathlib.Data.List.Forall2
import DiskKeys.World
import DiskKeys.Proofs.Files.Matching

/-! # Trees that differ in hidden bytes

    Two trees are alike if they differ at most in the bytes of files at
    hidden locations, and not in how many bytes these are.  Paths lead to
    the same places in both (`Alike.resolve`), a read fails for the same
    reason or yields as many bytes (`Alike.read`), and of a file that is
    not hidden it yields the same bytes (`Alike.read_of_shows`).  Sending
    goes by the address of a socket and by the size of the message, and so
    cannot tell them apart at all (`World.Alike.send`). -/

namespace DiskKeys

/-- Nodes that are the same, or files that differ in hidden bytes. -/
inductive Node.Alike (hidden : Prop) : Node → Node → Prop where
  | same (node : Node) : Alike hidden node node
  | bytes (mode : Nat) {contents contents' : Bytes} (h : hidden)
      (hlength : contents.length = contents'.length) :
      Alike hidden (.file mode contents) (.file mode contents')

theorem Node.Alike.sameKind {hidden : Prop} {node node' : Node} (h : node.Alike hidden node') :
    node.SameKind node' := by
  cases h with
  | same node => exact .same node
  | bytes mode h hlength => exact .files mode _ _

namespace FileTree

/-- The location of the file that a path names, if it names a file. -/
def fileOf? (t : FileTree) (p : Path) : Option Location :=
  match t.resolve p with
  | .ok (loc, .file _ _) => some loc
  | _ => none

/-- The file that a path names is not hidden. -/
def Shows (hide : Location → Prop) (t : FileTree) (p : Path) : Prop :=
  ∀ loc, t.fileOf? p = some loc → ¬ hide loc

/-- Trees that differ at most in the bytes of files at hidden locations. -/
structure Alike (hide : Location → Prop) (t t' : FileTree) : Prop where
  cwd : t.cwd = t'.cwd
  node : ∀ loc, Option.Rel (Node.Alike (hide loc)) (t.node? loc) (t'.node? loc)
  /-- A directory may list its names in another order. -/
  names : ∀ dir, (t.names dir).Perm (t'.names dir)

namespace Alike

variable {hide : Location → Prop} {t t' : FileTree}

/-! ## Where paths lead -/

theorem toMatches (h : t.Alike hide t') : t.Matches (fun loc => Node.Alike (hide loc)) t' where
  cwd := h.cwd
  node := by
    intro loc
    have hrel := h.node loc
    generalize t.node? loc = x, t'.node? loc = y at hrel ⊢
    cases hrel with
    | none => exact .none
    | some hnode => exact .some ⟨hnode.sameKind, hnode⟩

/-- A path leads to the same location, and to a node that is alike. -/
theorem resolve (h : t.Alike hide t') (p : Path) :
    (t.resolve p).Alike (fun x y => x.1 = y.1 ∧ x.2.Alike (hide x.1) y.2) (t'.resolve p) :=
  (h.toMatches.resolve p).mono fun _ _ hfound => ⟨hfound.1, hfound.2.2⟩

/-- What two trees make of a path, case by case. -/
theorem resolve_cases (h : t.Alike hide t') (p : Path) :
    (t'.resolve p = t.resolve p) ∨
    ∃ loc mode contents contents', t.resolve p = .ok (loc, .file mode contents) ∧
      t'.resolve p = .ok (loc, .file mode contents') ∧ hide loc ∧
      contents.length = contents'.length := by
  have hrel := h.resolve p
  generalize t.resolve p = x, t'.resolve p = y at hrel ⊢
  cases hrel with
  | error e => exact Or.inl rfl
  | @ok found found' hfound =>
      obtain ⟨loc, node⟩ := found
      obtain ⟨loc', node'⟩ := found'
      obtain ⟨hloc, hnode⟩ := hfound
      cases hloc
      cases hnode with
      | same => exact Or.inl rfl
      | bytes mode hhide hlength => exact Or.inr ⟨loc, mode, _, _, rfl, rfl, hhide, hlength⟩

/-! ## Reading -/

theorem probe (h : t.Alike hide t') (p : Path) : t'.probe p = t.probe p := by
  unfold FileTree.probe
  rcases h.resolve_cases p with heq | ⟨loc, mode, contents, contents', ht, ht', -, -⟩
  · rw [heq]
  · rw [ht, ht']
    rfl

theorem list (h : t.Alike hide t') (p : Path) : (t.list p).Alike List.Perm (t'.list p) := by
  unfold FileTree.list
  rcases h.resolve_cases p with heq | ⟨loc, mode, contents, contents', ht, ht', -, -⟩
  · -- the same directory, but its names may come in another order
    rw [heq]
    refine .bind (.of_eq rfl) ?_
    rintro ⟨loc, node⟩ _ rfl
    cases node with
    | directory => exact .ok (h.names loc)
    | file mode contents => exact .error _
    | socket id => exact .error _
  · rw [ht, ht']
    exact .error _

/-- Whether and why a read fails does not depend on hidden bytes, nor does
    how many bytes it yields. -/
theorem read (h : t.Alike hide t') (p : Path) :
    (t.read p).Alike (fun bytes bytes' => bytes.length = bytes'.length) (t'.read p) := by
  refine (h.toMatches.read p).mono ?_
  rintro bytes bytes' ⟨loc, mode, hnode⟩
  cases hnode with
  | same => rfl
  | bytes _ _ hlength => exact hlength

theorem readSecret (h : t.Alike hide t') (p : Path) :
    (t.readSecret p).Alike (fun bytes bytes' => bytes.length = bytes'.length) (t'.readSecret p) :=
  (h.read p).mapError _

/-- What is not hidden is read as it is. -/
theorem read_of_shows (h : t.Alike hide t') {p : Path} (hp : t.Shows hide p) :
    t'.read p = t.read p := by
  unfold FileTree.read
  rcases h.resolve_cases p with heq | ⟨loc, mode, contents, contents', ht, -, hhide, -⟩
  · rw [heq]
  · exact absurd hhide (hp loc (by rw [FileTree.fileOf?, ht]))

theorem readText_of_shows (h : t.Alike hide t') {p : Path} (hp : t.Shows hide p) :
    t'.readText p = t.readText p := by
  rw [readText, readText, h.read_of_shows hp]

end Alike

/-- Trees whose entries are alike, one by one. -/
theorem alike_of_entries {hide : Location → Prop} {t t' : FileTree} (hcwd : t.cwd = t'.cwd)
    (h : List.Forall₂ (fun e e' => e.1 = e'.1 ∧ e.2.Alike (hide e.1) e'.2) t.entries t'.entries) :
    t.Alike hide t' := by
  refine ⟨hcwd, ?_, ?_⟩
  · intro loc
    unfold node?
    generalize t.entries = entries, t'.entries = entries' at h
    by_cases hroot : loc = []
    · rw [if_pos hroot, if_pos hroot]
      exact .some (.same _)
    · rw [if_neg hroot, if_neg hroot]
      induction h with
      | nil => exact .none
      | @cons e e' rest rest' he hrest ih =>
          obtain ⟨place, node⟩ := e
          obtain ⟨place', node'⟩ := e'
          obtain ⟨rfl, hnode⟩ := he
          rw [List.lookup_cons, List.lookup_cons]
          cases heq : loc == place with
          | true =>
              rw [eq_of_beq heq]
              exact .some hnode
          | false => exact ih
  · intro dir
    refine List.Perm.of_eq ?_
    unfold names
    generalize t.entries = entries, t'.entries = entries' at h
    induction h with
    | nil => rfl
    | cons he hrest ih => simp only [List.filterMap_cons, he.1, ih]

end FileTree

/-! ## Worlds -/

namespace World

/-- Worlds that differ at most in the bytes of files at hidden
    locations. -/
structure Alike (hide : Location → Prop) (w w' : World) : Prop where
  tree : w.tree.Alike hide w'.tree
  sockets : w.sockets = w'.sockets
  now : w.now = w'.now

theorem Alike.send {hide : Location → Prop} {w w' : World} (h : w.Alike hide w') (p : Path)
    (payload : Bytes) : w'.send p payload = w.send p payload := by
  unfold World.send isListening
  rw [h.sockets]
  rcases h.tree.resolve_cases p with heq | ⟨loc, mode, contents, contents', ht, ht', -, -⟩
  · rw [heq]
  · rw [ht, ht']
    rfl

/-- Messages of one size arrive at the same socket, or are refused for the
    same reason. -/
theorem send_of_length_eq (w : World) (p : Path) {payload payload' : Bytes}
    (h : payload.length = payload'.length) :
    (w.send p payload).Alike
      (fun d d' => d.socket = d'.socket ∧ d.payload = payload ∧ d'.payload = payload')
      (w.send p payload') := by
  unfold World.send
  -- up to the answer, the message only counts by its size
  rw [← h]
  refine .bind (.of_eq rfl) ?_
  rintro _ _ -
  by_cases hsize : maxPayload < payload.length
  · rw [if_pos hsize, if_pos hsize]
    exact .error _
  · rw [if_neg hsize, if_neg hsize]
    refine .bind (.of_eq rfl) ?_
    rintro ⟨loc, node⟩ _ rfl
    cases node with
    | directory => exact .error _
    | file mode contents =>
        by_cases hmode : FileTree.ownerMayWrite mode = true
        · simp only [hmode, if_true]
          exact .error _
        · simp only [hmode]
          exact .error _
    | socket id =>
        by_cases hopen : w.isListening id = true
        · simp only [hopen, if_true]
          exact .ok ⟨rfl, rfl, rfl⟩
        · simp only [hopen]
          exact .error _

end World

end DiskKeys
