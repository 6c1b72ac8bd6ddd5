import DiskKeys.Proofs.Files.Matching
import DiskKeys.Proofs.Files.Rewrite

/-! # Writing to trees of one shape

    Operations that make directories and write secrets ask a tree for
    nothing but its shape.  So on two trees that match they make the same
    choices, end for the same reason and leave trees that match again
    (`Lockstep`), as long as what they put there is related: it is enough
    that the relation does not look beyond the outlines of nodes
    (`Coarse`).  Every operation has a lemma for this, and from them it
    follows for the writing of secrets of equal length
    (`lockstep_writeSecret`). -/

namespace DiskKeys

/-- What a listing shows of a node: of a file, the permission bits and how
    many bytes it holds. -/
inductive Outline where
  | directory
  | file (mode size : Nat)
  | socket (id : Nat)
  deriving DecidableEq, Repr

def Node.outline : Node → Outline
  | .directory => .directory
  | .file mode contents => .file mode contents.length
  | .socket id => .socket id

namespace FileTree

/-- A relation that holds of any two nodes of one outline. -/
def Coarse (r : Location → Node → Node → Prop) : Prop :=
  ∀ loc node node', node.outline = node'.outline → r loc node node'

/-- Two runs yield the same and leave trees that match. -/
structure Lockstep {α : Type} (r : Location → Node → Node → Prop) (run run' : α × FileTree) :
    Prop where
  result : run.1 = run'.1
  tree : run.2.Matches r run'.2

namespace Matches

variable {r : Location → Node → Node → Prop} {t t' : FileTree}

protected theorem refl (hr : Coarse r) (t : FileTree) : t.Matches r t where
  cwd := rfl
  node := by
    intro loc
    cases t.node? loc with
    | none => exact .none
    | some node => exact .some ⟨.same node, hr loc node node rfl⟩

theorem wellFormed (h : t.Matches r t') (ht : t.WellFormed) : t'.WellFormed := by
  intro loc hloc hnode
  rw [h.node?_eq_directory]
  refine ht loc hloc ?_
  rwa [ne_eq, ← Option.isNone_iff_eq_none, ← h.isNone_node?, Option.isNone_iff_eq_none]

/-! ## Putting, erasing, moving -/

theorem put (h : t.Matches r t') {loc : Location} {node node' : Node}
    (hkind : node.SameKind node') (hnode : r loc node node') :
    (t.put loc node).Matches r (t'.put loc node') where
  cwd := h.cwd
  node := by
    intro loc'
    by_cases hroot : loc' = []
    · rw [hroot]
      exact h.node []
    · rw [node?_put _ _ _ _ hroot, node?_put _ _ _ _ hroot]
      by_cases heq : loc' = loc
      · rw [if_pos heq, if_pos heq, heq]
        exact .some ⟨hkind, hnode⟩
      · rw [if_neg heq, if_neg heq]
        exact h.node loc'

theorem erase (h : t.Matches r t') (loc : Location) : (t.erase loc).Matches r (t'.erase loc) where
  cwd := h.cwd
  node := by
    intro loc'
    by_cases hroot : loc' = []
    · rw [hroot]
      exact h.node []
    · rw [node?_erase _ _ _ hroot, node?_erase _ _ _ hroot]
      by_cases heq : loc' = loc
      · rw [if_pos heq, if_pos heq]
        exact .none
      · rw [if_neg heq, if_neg heq]
        exact h.node loc'

/-- Files of equal length move to the same place. -/
theorem move_file (h : t.Matches r t') (hr : Coarse r) (ht : t.WellFormed)
    {src dir : Location} {name : Name} (hmovable : t.Movable src dir name)
    (hmovable' : t'.Movable src dir name) {mode : Nat} {contents contents' : Bytes}
    (hsrc : t.node? src = some (.file mode contents))
    (hsrc' : t'.node? src = some (.file mode contents'))
    (hlength : contents.length = contents'.length) :
    (t.move src (dir ++ [name])).Matches r (t'.move src (dir ++ [name])) where
  cwd := congrArg (moved src (dir ++ [name])) h.cwd
  node := by
    intro loc
    rw [node?_move_file ht hmovable (by rw [hsrc]; exact nofun),
      node?_move_file (h.wellFormed ht) hmovable' (by rw [hsrc']; exact nofun), hsrc, hsrc']
    by_cases hdst : loc = dir ++ [name]
    · rw [if_pos hdst, if_pos hdst]
      exact .some ⟨.files mode contents contents', hr _ _ _ (by rw [Node.outline, hlength]; rfl)⟩
    · rw [if_neg hdst, if_neg hdst]
      by_cases heq : loc = src
      · rw [if_pos heq, if_pos heq]
        exact .none
      · rw [if_neg heq, if_neg heq]
        exact h.node loc

/-! ## Making directories -/

theorem makeDirectory (h : t.Matches r t') (hr : Coarse r) (p : Path) :
    (t.makeDirectory p).Alike (fun made made' => made.Matches r made') (t'.makeDirectory p) := by
  refine .bind (.of_eq (h.resolveParent p).symm) ?_
  rintro last _ rfl
  cases last with
  | dots => exact .error _
  | name dir name =>
      refine .bind (.of_eq (h.child dir name).symm) ?_
      rintro loc _ rfl
      rcases h.node_cases loc with ⟨hnone, hnone'⟩ | ⟨node, node', hsome, hsome', -⟩
      · rw [hnone, hnone']
        exact .ok (h.put (.same .directory) (hr _ _ _ rfl))
      · rw [hsome, hsome']
        exact .error _

theorem tryDirectory (h : t.Matches r t') (hr : Coarse r) (refused : Path → Option Fault)
    (p : Path) :
    (t.tryDirectory refused p).Alike (fun made made' => made.Matches r made')
      (t'.tryDirectory refused p) := by
  refine .bind (h.makeDirectory hr p) ?_
  intro made made' hmade
  cases refused p with
  | some fault => exact .error _
  | none => exact .ok hmade

theorem lockstep_settle (h : t.Matches r t') (p : Path) (e : Fault) :
    Lockstep r (makeDirectoriesFrom.settle p t e) (makeDirectoriesFrom.settle p t' e) where
  result := by rw [makeDirectoriesFrom.settle, makeDirectoriesFrom.settle, h.isDirectory]
  tree := h

theorem lockstep_attempt (h : t.Matches r t') (hr : Coarse r) (refused : Path → Option Fault)
    (p : Path) {failed failed' : Fault → Except Fault Unit × FileTree}
    (hfailed : ∀ e, Lockstep r (failed e) (failed' e)) :
    Lockstep r (makeDirectoriesFrom.attempt t refused p failed)
      (makeDirectoriesFrom.attempt t' refused p failed') := by
  unfold makeDirectoriesFrom.attempt
  by_cases hempty : p.bytes.isEmpty = true
  · rw [if_pos hempty, if_pos hempty]
    exact ⟨rfl, h⟩
  · rw [if_neg hempty, if_neg hempty]
    have hmade := h.tryDirectory hr refused p
    generalize t.tryDirectory refused p = x, t'.tryDirectory refused p = y at hmade ⊢
    cases hmade with
    | error e => exact hfailed e
    | ok hmatches => exact ⟨rfl, hmatches⟩

theorem lockstep_makeDirectoriesFrom (h : t.Matches r t') (hr : Coarse r)
    (refused : Path → Option Fault) (p : Path) (above : List Path) :
    Lockstep r (t.makeDirectoriesFrom refused p above)
      (t'.makeDirectoriesFrom refused p above) := by
  induction above generalizing p with
  | nil =>
      refine h.lockstep_attempt hr refused p ?_
      intro e
      by_cases he : e = .noEntry
      · rw [if_pos he, if_pos he]
        exact ⟨rfl, h⟩
      · rw [if_neg he, if_neg he]
        exact h.lockstep_settle p e
  | cons parent above ih =>
      refine h.lockstep_attempt hr refused p ?_
      intro e
      by_cases he : e = .noEntry
      · rw [if_pos he, if_pos he]
        have hparents := ih parent
        generalize t.makeDirectoriesFrom refused parent above = made,
          t'.makeDirectoriesFrom refused parent above = made' at hparents ⊢
        obtain ⟨result, t₁⟩ := made
        obtain ⟨result', t₁'⟩ := made'
        obtain ⟨hresult, htree⟩ := hparents
        obtain rfl : result = result' := hresult
        cases result with
        | error e => exact ⟨rfl, htree⟩
        | ok u =>
            -- the directories above are there, and only this one is left
            have hmade := htree.tryDirectory hr refused p
            dsimp only
            generalize t₁.tryDirectory refused p = x, t₁'.tryDirectory refused p = y at hmade ⊢
            cases hmade with
            | error e => exact htree.lockstep_settle p e
            | ok hmatches => exact ⟨rfl, hmatches⟩
      · rw [if_neg he, if_neg he]
        exact h.lockstep_settle p e

theorem lockstep_makeDirectories (h : t.Matches r t') (hr : Coarse r)
    (refused : Path → Option Fault) (p : Path) :
    Lockstep r (t.makeDirectories refused p) (t'.makeDirectories refused p) :=
  h.lockstep_makeDirectoriesFrom hr refused p p.ancestors

/-! ## Drafts -/

/-- The first number with a property does not depend on how far one looks. -/
theorem find?_range_unique {p : Nat → Bool} {n m i j : Nat}
    (hi : (List.range n).find? p = some i) (hj : (List.range m).find? p = some j) : i = j := by
  obtain ⟨hpi, -, hbefore⟩ := List.find?_range_eq_some.mp hi
  obtain ⟨hpj, -, hbefore'⟩ := List.find?_range_eq_some.mp hj
  rcases Nat.lt_trichotomy i j with hlt | heq | hgt
  · simpa [hpi] using hbefore' i hlt
  · exact heq
  · simpa [hpj] using hbefore j hgt

/-- The same name is free, however many entries the trees have. -/
theorem freshName? (h : t.Matches r t') (dir : Location) : t'.freshName? dir = t.freshName? dir := by
  obtain ⟨name, hname⟩ := t.exists_freshName dir
  obtain ⟨name', hname'⟩ := t'.exists_freshName dir
  rw [hname, hname', Option.some_inj]
  simp only [FileTree.freshName?, List.find?_map, Option.map_eq_some_iff, h.isNone_node?]
    at hname hname'
  obtain ⟨n, hn, rfl⟩ := hname
  obtain ⟨n', hn', rfl⟩ := hname'
  rw [find?_range_unique hn' hn]

/-- Files of equal length are put at the same place. -/
theorem put_file (h : t.Matches r t') (hr : Coarse r) (loc : Location) (mode : Nat)
    {contents contents' : Bytes} (hlength : contents.length = contents'.length) :
    (t.put loc (.file mode contents)).Matches r (t'.put loc (.file mode contents')) :=
  h.put (.files mode contents contents') (hr _ _ _ (by rw [Node.outline, hlength]; rfl))

theorem createDraft (h : t.Matches r t') (hr : Coarse r) (mishap : Option Mishap) (dir : Path) :
    (t.createDraft mishap dir).Alike (fun d d' => d.1.Matches r d'.1 ∧ d.2 = d'.2)
      (t'.createDraft mishap dir) := by
  refine .bind (h.resolve dir) ?_
  rintro ⟨loc, node⟩ ⟨_, node'⟩ ⟨rfl, hkind, -⟩
  cases hkind with
  | files mode contents contents' => exact .error _
  | same =>
      cases node with
      | file mode contents => exact .error _
      | socket id => exact .error _
      | directory =>
          simp only [h.freshName?]
          cases Mishap.at? mishap .create with
          | some fault => exact .error _
          | none =>
              cases t.freshName? loc with
              | none => exact .error _
              | some name => exact .ok ⟨h.put_file hr _ _ rfl, rfl⟩

/-! ## Renaming -/

theorem renameTarget (h : t.Matches r t') {src : Location}
    (hsrc : t.node? src ≠ some .directory) (p : Path) (srcInSlash : Bool) :
    t'.renameTarget src p srcInSlash = t.renameTarget src p srcInSlash := by
  unfold FileTree.renameTarget
  rw [h.resolveParent]
  simp only [h.child, h.node?_eq_directory]
  rcases h.node_cases src with ⟨hnone, hnone'⟩ | ⟨node, node', hsome, hsome', hkind, -⟩
  · simp only [hnone, hnone']
  · simp only [hsome, hsome']
    cases hkind with
    | files mode contents contents' => rfl
    | same =>
        cases node with
        | directory => exact absurd hsome hsrc
        | file mode contents => rfl
        | socket id => rfl

/-- Files of equal length that lie at one place are renamed alike. -/
theorem renameNode (h : t.Matches r t') (hr : Coarse r) (ht : t.WellFormed)
    {src : Location} {mode : Nat} {contents contents' : Bytes}
    (hsrc : t.node? src = some (.file mode contents))
    (hsrc' : t'.node? src = some (.file mode contents'))
    (hlength : contents.length = contents'.length) (p : Path) :
    (t.renameNode src p false).Alike (fun d d' => d.1.Matches r d'.1)
      (t'.renameNode src p false) := by
  have heq := h.renameTarget (by rw [hsrc]; exact nofun) p false
  unfold FileTree.renameNode
  cases htarget : t.renameTarget src p false with
  | error e =>
      rw [heq, htarget]
      exact .error e
  | ok dst =>
      have htarget' := heq.trans htarget
      rw [htarget']
      refine .ok ?_
      show (if dst = src then t else t.move src dst).Matches r
        (if dst = src then t' else t'.move src dst)
      by_cases hne : dst = src
      · rw [if_pos hne, if_pos hne]
        exact h
      · rw [if_neg hne, if_neg hne]
        obtain ⟨dir, name, rfl, hmovable⟩ := movable_of_renameTarget ht htarget hne
        obtain ⟨dir', name', hdst, hmovable'⟩ := movable_of_renameTarget (h.wellFormed ht) htarget' hne
        obtain ⟨rfl, hname⟩ := List.append_inj' hdst rfl
        obtain rfl := List.singleton_inj.mp hname
        exact h.move_file hr ht hmovable hmovable' hsrc hsrc' hlength

/-- Drafts that lie at one place take one path alike. -/
theorem placeDraft (h : t.Matches r t') (hr : Coarse r) (ht : t.WellFormed)
    {src : Location} {mode : Nat} {contents contents' : Bytes}
    (hsrc : t.node? src = some (.file mode contents))
    (hsrc' : t'.node? src = some (.file mode contents'))
    (hlength : contents.length = contents'.length) (mishap : Option Mishap) (p : Path) :
    (t.placeDraft mishap src p).Alike (fun d d' => d.Matches r d')
      (t'.placeDraft mishap src p) := by
  unfold FileTree.placeDraft
  cases Mishap.at? mishap .rename with
  | some fault => exact .error _
  | none =>
      rcases (h.renameNode hr ht hsrc hsrc' hlength p).outcomes with
        ⟨e, hrename, hrename'⟩ | ⟨d, d', hrename, hrename', hd⟩
      · rw [hrename, hrename']
        exact .error e
      · rw [hrename, hrename']
        exact .ok hd

/-! ## Writing -/

/-- Drafts of equally long secrets are filled up to the same step, and are
    equally long then. -/
theorem fillDraft_alike (mishap : Option Mishap) {secret secret' : Bytes}
    (hlength : secret.length = secret'.length) :
    ∃ result mode contents contents', contents.length = contents'.length ∧
      fillDraft mishap secret = (result, .file mode contents) ∧
      fillDraft mishap secret' = (result, .file mode contents') := by
  unfold fillDraft
  split
  · exact ⟨_, _, _, _, by rw [List.length_take, List.length_take, hlength], rfl, rfl⟩
  · exact ⟨_, _, _, _, hlength, rfl, rfl⟩
  · exact ⟨_, _, _, _, hlength, rfl, rfl⟩
  · exact ⟨_, _, _, _, hlength, rfl, rfl⟩
  · exact ⟨_, _, _, _, hlength, rfl, rfl⟩

/-- Secrets of equal length are written alike: both writes succeed, or both
    fail for the same reason. -/
theorem lockstep_writeSecret (h : t.Matches r t') (hr : Coarse r) (ht : t.WellFormed)
    (mishap : Option Mishap) (p : Path) {secret secret' : Bytes}
    (hlength : secret.length = secret'.length) :
    Lockstep r (t.writeSecret mishap p secret) (t'.writeSecret mishap p secret') := by
  have hmake := h.lockstep_makeDirectories hr (Mishap.at? mishap <| .directory ·) (homeOf p)
  have ht₁ := wellFormed_makeDirectories ht (Mishap.at? mishap <| .directory ·) (homeOf p)
  obtain ⟨made, t₁, hmade⟩ : ∃ made t₁,
      t.makeDirectories (Mishap.at? mishap <| .directory ·) (homeOf p) = (made, t₁) :=
    ⟨_, _, rfl⟩
  obtain ⟨made', t₁', hmade'⟩ : ∃ made t₁,
      t'.makeDirectories (Mishap.at? mishap <| .directory ·) (homeOf p) = (made, t₁) :=
    ⟨_, _, rfl⟩
  rw [hmade] at hmake ht₁
  rw [hmade'] at hmake
  obtain ⟨hresult, htree⟩ := hmake
  obtain rfl : made = made' := hresult
  cases made with
  | error e =>
      simp only [writeSecret, hmade, hmade']
      exact ⟨rfl, htree⟩
  | ok u =>
      rcases (htree.createDraft hr mishap (homeOf p)).outcomes with
        ⟨e, hdraft, hdraft'⟩ | ⟨d, d', hdraft, hdraft', hd, hloc⟩
      · simp only [writeSecret, hmade, hmade', hdraft, hdraft']
        exact ⟨rfl, htree⟩
      · obtain ⟨d, loc⟩ := d
        obtain ⟨d', loc'⟩ := d'
        obtain rfl : loc = loc' := hloc
        obtain ⟨home, name, rfl, hresolve, hfree, rfl⟩ := createDraft_eq_ok hdraft
        obtain ⟨-, -, -, -, -, rfl⟩ := createDraft_eq_ok hdraft'
        obtain ⟨filled, mode, contents, contents', hcontents, hfill, hfill'⟩ :=
          fillDraft_alike mishap hlength
        have hput := htree.put_file hr (home ++ [name]) mode hcontents
        have hwell : (t₁.put (home ++ [name]) (.file mode contents)).WellFormed :=
          ht₁.put (node?_of_resolve hresolve) (by simp [hfree]) _
        cases filled with
        | error e =>
            simp only [writeSecret, hmade, hmade', hdraft, hdraft', hfill, hfill', put_put]
            exact ⟨rfl, hput.erase _⟩
        | ok u =>
            rcases (hput.placeDraft hr hwell (node?_put_self _ _ _ _) (node?_put_self _ _ _ _)
              hcontents mishap p).outcomes with ⟨e, hplace, hplace'⟩ | ⟨u, u', hplace, hplace', hu⟩
            · simp only [writeSecret, hmade, hmade', hdraft, hdraft', hfill, hfill', put_put,
                hplace, hplace']
              exact ⟨rfl, hput.erase _⟩
            · simp only [writeSecret, hmade, hmade', hdraft, hdraft', hfill, hfill', put_put,
                hplace, hplace']
              exact ⟨rfl, hu⟩

end Matches

end FileTree

end DiskKeys
