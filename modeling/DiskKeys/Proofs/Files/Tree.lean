import Mathlib.Data.List.Induction
import Mathlib.Tactic.ByContra
import Mathlib.Tactic.SplitIfs
import DiskKeys.Files.Tree

/-! # Trees in which every node lies in a directory

    A tree is a list of entries, but in a file system no node hangs in the
    air.  With that, a location has something below it only if a directory
    is there (`WellFormed.directory_of_append`), and so what a move
    replaces has nothing below it that could get in the way: a move
    carries what is below its source over to its destination and leaves
    the rest alone (`node?_move_append`, `node?_move_of_not_below`). -/

namespace DiskKeys.FileTree

/-- Every node lies in a directory. -/
def WellFormed (t : FileTree) : Prop :=
  ∀ loc, loc ≠ [] → t.node? loc ≠ none → t.node? loc.dropLast = some .directory

/-- Nothing lies below a location. -/
def NothingBelow (t : FileTree) (loc : Location) : Prop :=
  ∀ rest, rest ≠ [] → t.node? (loc ++ rest) = none

theorem wellFormed_empty : empty.WellFormed := by
  intro loc hloc hnode
  rw [node?, if_neg hloc] at hnode
  exact absurd rfl hnode

/-! ## Names -/

theorem node?_of_ne_nil (t : FileTree) {loc : Location} (h : loc ≠ []) :
    t.node? loc = t.entries.lookup loc := if_neg h

/-- Something is where an entry is. -/
theorem lookup_ne_none_of_mem {entries : List (Location × Node)} {e : Location × Node}
    (h : e ∈ entries) : entries.lookup e.1 ≠ none := by
  rw [ne_eq, List.lookup_eq_none_iff]
  intro hall
  simpa using hall e h

/-- An entry is where something is, apart from the root. -/
theorem exists_mem_of_node?_ne_none {t : FileTree} {loc : Location} (hloc : loc ≠ [])
    (h : t.node? loc ≠ none) : ∃ e ∈ t.entries, e.1 = loc := by
  rw [node?_of_ne_nil t hloc] at h
  obtain ⟨node, hnode⟩ := Option.ne_none_iff_exists'.mp h
  obtain ⟨before, after, hentries, -⟩ := List.lookup_eq_some_iff.mp hnode
  exact ⟨(loc, node), by simp [hentries], rfl⟩

/-- It is enough to look at the entries of a tree. -/
theorem wellFormed_iff {t : FileTree} :
    t.WellFormed ↔ ∀ e ∈ t.entries, e.1 ≠ [] → t.node? e.1.dropLast = some .directory := by
  constructor
  · intro ht e he hne
    refine ht e.1 hne ?_
    rw [node?_of_ne_nil t hne]
    exact lookup_ne_none_of_mem he
  · intro h loc hloc hnode
    obtain ⟨e, he, rfl⟩ := exists_mem_of_node?_ne_none hloc hnode
    exact h e he hloc

instance : DecidablePred WellFormed := fun _ => decidable_of_iff _ wellFormed_iff.symm

/-- The names in a directory are those under which something is there. -/
theorem mem_names {t : FileTree} {dir : Location} {name : Name} :
    name ∈ t.names dir ↔ t.node? (dir ++ [name]) ≠ none := by
  rw [node?_of_ne_nil t (by simp), names, List.mem_filterMap]
  constructor
  · rintro ⟨e, he, hname⟩
    obtain ⟨hdir, hlast⟩ : e.1.dropLast = dir ∧ e.1.getLast? = some name := by
      split_ifs at hname with h
      exact ⟨h, hname⟩
    obtain ⟨init, hinit⟩ := List.getLast?_eq_some_iff.mp hlast
    rw [← hdir, hinit, List.dropLast_concat, ← hinit]
    exact lookup_ne_none_of_mem he
  · intro h
    rw [← node?_of_ne_nil t (by simp)] at h
    obtain ⟨e, he, hloc⟩ := exists_mem_of_node?_ne_none (by simp) h
    exact ⟨e, he, by simp [hloc]⟩

/-! ## What lies below -/

/-- Whatever has a node below it is a directory. -/
theorem WellFormed.directory_of_append {t : FileTree} (ht : t.WellFormed) {loc rest : Location}
    (hrest : rest ≠ []) (hnode : t.node? (loc ++ rest) ≠ none) :
    t.node? loc = some .directory := by
  -- upwards from the node: each step takes off the last name
  induction rest using List.reverseRecOn with
  | nil => exact absurd rfl hrest
  | append_singleton rest name ih =>
      have hparent := ht _ (by simp) hnode
      rw [← List.append_assoc, List.dropLast_concat] at hparent
      by_cases hnil : rest = []
      · rwa [hnil, List.append_nil] at hparent
      · exact ih hnil (by rw [hparent]; exact Option.some_ne_none _)

theorem WellFormed.nothingBelow_of_ne {t : FileTree} (ht : t.WellFormed) {loc : Location}
    (h : t.node? loc ≠ some .directory) : t.NothingBelow loc := by
  intro rest hrest
  by_contra hnode
  exact h (ht.directory_of_append hrest hnode)

theorem WellFormed.nothingBelow_of_names {t : FileTree} (ht : t.WellFormed) {loc : Location}
    (h : t.names loc = []) : t.NothingBelow loc := by
  intro rest hrest
  by_contra hnode
  obtain ⟨name, rest', rfl⟩ := List.exists_cons_of_ne_nil hrest
  have hname : t.node? (loc ++ [name]) ≠ none := by
    by_cases hnil : rest' = []
    · rwa [hnil] at hnode
    · rw [List.append_cons] at hnode
      rw [ht.directory_of_append hnil hnode]
      exact Option.some_ne_none _
  have hmem := mem_names.mpr hname
  rw [h] at hmem
  exact absurd hmem List.not_mem_nil

/-! ## Putting and erasing -/

theorem node?_put_self (t : FileTree) (dir : Location) (name : Name) (node : Node) :
    (t.put (dir ++ [name]) node).node? (dir ++ [name]) = some node := by
  rw [node?_put _ _ _ _ (by simp), if_pos rfl]

/-- Putting leaves all other locations alone, the root included. -/
theorem node?_put_of_ne (t : FileTree) {loc loc' : Location} (node : Node) (h : loc' ≠ loc) :
    (t.put loc node).node? loc' = t.node? loc' := by
  by_cases hnil : loc' = []
  · rw [hnil, node?_root, node?_root]
  · rw [node?_put _ _ _ _ hnil, if_neg h]

/-- Erasing leaves all other locations alone, the root included. -/
theorem node?_erase_of_ne (t : FileTree) {loc loc' : Location} (h : loc' ≠ loc) :
    (t.erase loc).node? loc' = t.node? loc' := by
  by_cases hnil : loc' = []
  · rw [hnil, node?_root, node?_root]
  · rw [node?_erase _ _ _ hnil, if_neg h]

/-- What takes the place of no directory has nothing below it. -/
theorem WellFormed.put {t : FileTree} (ht : t.WellFormed) {dir : Location} {name : Name}
    (hdir : t.node? dir = some .directory) (hold : t.node? (dir ++ [name]) ≠ some .directory)
    (node : Node) : (t.put (dir ++ [name]) node).WellFormed := by
  intro loc hloc hnode
  by_cases heq : loc = dir ++ [name]
  · rw [heq, List.dropLast_concat, node?_put_of_ne t node (by simp)]
    exact hdir
  · rw [node?_put_of_ne t node heq] at hnode
    have hparent := ht loc hloc hnode
    rwa [node?_put_of_ne t node]
    intro hput
    exact hold (hput ▸ hparent)

theorem WellFormed.erase {t : FileTree} (ht : t.WellFormed) {loc : Location}
    (hbelow : t.NothingBelow loc) : (t.erase loc).WellFormed := by
  intro loc' hloc' hnode
  rw [node?_erase _ _ _ hloc'] at hnode
  split_ifs at hnode with heq
  · exact absurd rfl hnode
  · rw [node?_erase_of_ne]
    · exact ht loc' hloc' hnode
    · intro hgone
      have hnone := hbelow [loc'.getLast hloc'] (by simp)
      rw [← hgone, List.dropLast_concat_getLast hloc'] at hnone
      exact hnode hnone

/-! ## Moving -/

theorem moved_append (src dst rest : Location) : moved src dst (src ++ rest) = dst ++ rest := by
  rw [moved, if_pos (List.isPrefixOf_iff_prefix.mpr (List.prefix_append src rest)),
    List.drop_left]

theorem moved_of_not_below {src loc : Location} (dst : Location) (h : ¬ src <+: loc) :
    moved src dst loc = loc := by
  rw [moved, if_neg]
  rwa [List.isPrefixOf_iff_prefix]

/-- A node can move from one location to another: there is a directory for
    it, what it replaces has nothing below it, and neither location lies
    within the other. -/
structure Movable (t : FileTree) (src dir : Location) (name : Name) : Prop where
  directory : t.node? dir = some .directory
  nothingBelow : t.NothingBelow (dir ++ [name])
  notInside : ¬ src <+: dir ++ [name]
  notAbove : ¬ dir ++ [name] <+: src

theorem Movable.not_prefix_dir {t : FileTree} {src dir : Location} {name : Name}
    (h : t.Movable src dir name) : ¬ src <+: dir :=
  fun hpre => h.notInside (hpre.trans (List.prefix_append dir [name]))

theorem Movable.ne {t : FileTree} {src dir : Location} {name : Name}
    (h : t.Movable src dir name) : src ≠ dir ++ [name] :=
  fun heq => h.notInside (heq ▸ List.prefix_refl src)

theorem child_not_above (dir : Location) (name : Name) : ¬ dir ++ [name] <+: dir := by
  intro hpre
  have hlen := hpre.length_le
  rw [List.length_append, List.length_singleton] at hlen
  omega

theorem Movable.ne_nil {t : FileTree} {src dir : Location} {name : Name}
    (h : t.Movable src dir name) : src ≠ [] := by
  rintro rfl
  exact h.notInside List.nil_prefix

/-- Entries whose locations change are found under the new ones. -/
theorem lookup_map_location {f : Location → Location} {loc : Location} (old : Location)
    {entries : List (Location × Node)} (h : ∀ e ∈ entries, f e.1 = loc ↔ e.1 = old) :
    (entries.map fun e => (f e.1, e.2)).lookup loc = entries.lookup old := by
  induction entries with
  | nil => rfl
  | cons e rest ih =>
      have hrest := ih fun e' he' => h e' (List.mem_cons_of_mem e he')
      have hkey : (loc == f e.1) = (old == e.1) := by
        rw [Bool.eq_iff_iff, beq_iff_eq, beq_iff_eq]
        have := h e List.mem_cons_self
        exact ⟨fun heq => (this.mp heq.symm).symm, fun heq => (this.mpr heq.symm).symm⟩
      rw [List.map_cons, List.lookup_cons, List.lookup_cons, hkey, hrest]

/-- What was below the source is below the destination. -/
theorem node?_move_append {t : FileTree} {src dir : Location} {name : Name}
    (h : t.Movable src dir name) (rest : Location) :
    (t.move src (dir ++ [name])).node? (dir ++ [name] ++ rest) = t.node? (src ++ rest) := by
  have hsrc : src ++ rest ≠ [] := by simp [h.ne_nil]
  have hother : src ++ rest ≠ dir ++ [name] := by
    intro heq
    exact h.notInside (heq ▸ List.prefix_append src rest)
  rw [node?_of_ne_nil _ (by simp), node?_of_ne_nil _ hsrc]
  show ((t.erase _).entries.map fun e => (moved src _ e.1, e.2)).lookup _ = _
  rw [lookup_map_location (src ++ rest), erase, lookup_filter_ne, if_neg hother]
  intro e he
  constructor
  · intro heq
    by_cases hpre : src <+: e.1
    · obtain ⟨rest', hrest'⟩ := hpre
      rw [← hrest', moved_append] at heq
      rw [← hrest', List.append_cancel_left heq]
    · -- an entry that stays would have to lie below the destination
      rw [moved_of_not_below _ hpre] at heq
      obtain ⟨hentry, hkept⟩ := List.mem_filter.mp he
      have hrest : rest ≠ [] := by
        rintro rfl
        rw [List.append_nil] at heq
        simp [heq] at hkept
      have hnone := h.nothingBelow rest hrest
      rw [node?_of_ne_nil _ (by simp), ← heq] at hnone
      exact absurd hnone (lookup_ne_none_of_mem hentry)
  · intro heq
    rw [heq, moved_append]

/-- What was neither below the source nor below the destination stays. -/
theorem node?_move_of_not_below {t : FileTree} {src dst loc : Location} (hsrc : ¬ src <+: loc)
    (hdst : ¬ dst <+: loc) : (t.move src dst).node? loc = t.node? loc := by
  by_cases hnil : loc = []
  · rw [hnil, node?_root, node?_root]
  · have hother : loc ≠ dst := fun heq => hdst (heq ▸ List.prefix_refl loc)
    rw [node?_of_ne_nil _ hnil, node?_of_ne_nil _ hnil]
    show ((t.erase dst).entries.map fun e => (moved src dst e.1, e.2)).lookup _ = _
    rw [lookup_map_location loc, erase, lookup_filter_ne, if_neg hother]
    intro e _
    by_cases hpre : src <+: e.1
    · obtain ⟨rest, hrest⟩ := hpre
      rw [← hrest, moved_append]
      constructor
      · intro heq
        exact absurd (heq ▸ List.prefix_append dst rest) hdst
      · intro heq
        exact absurd (heq ▸ List.prefix_append src rest) hsrc
    · rw [moved_of_not_below _ hpre]

/-- Nothing is left below the source. -/
theorem node?_move_src {t : FileTree} {src dst loc : Location} (hne : src ≠ []) (hsrc : src <+: loc)
    (hdst : ¬ dst <+: loc) : (t.move src dst).node? loc = none := by
  have hnil : loc ≠ [] := by
    rintro rfl
    exact hne (List.prefix_nil.mp hsrc)
  rw [node?_of_ne_nil _ hnil, List.lookup_eq_none_iff]
  intro e he
  obtain ⟨old, -, rfl⟩ := List.mem_map.mp he
  rw [bne_iff_ne]
  intro heq
  by_cases hpre : src <+: old.1
  · obtain ⟨rest, hrest⟩ := hpre
    rw [← hrest, moved_append] at heq
    exact hdst (heq ▸ List.prefix_append dst rest)
  · rw [moved_of_not_below _ hpre] at heq
    exact hpre (heq ▸ hsrc)

theorem WellFormed.move {t : FileTree} (ht : t.WellFormed) {src dir : Location} {name : Name}
    (h : t.Movable src dir name) : (t.move src (dir ++ [name])).WellFormed := by
  intro loc hloc hnode
  by_cases hdst : dir ++ [name] <+: loc
  · obtain ⟨rest, rfl⟩ := hdst
    rw [node?_move_append h] at hnode
    by_cases hnil : rest = []
    · -- the node that moved itself
      rw [hnil, List.append_nil, List.dropLast_concat,
        node?_move_of_not_below h.not_prefix_dir (child_not_above dir name)]
      exact h.directory
    · rw [List.dropLast_append_of_ne_nil hnil, node?_move_append h,
        ← List.dropLast_append_of_ne_nil hnil]
      exact ht _ (by simp [hnil]) hnode
  · by_cases hsrc : src <+: loc
    · exact absurd (node?_move_src h.ne_nil hsrc hdst) hnode
    · rw [node?_move_of_not_below hsrc hdst] at hnode
      have hup : loc.dropLast <+: loc := List.dropLast_prefix loc
      rw [node?_move_of_not_below (fun hpre => hsrc (hpre.trans hup))
        (fun hpre => hdst (hpre.trans hup))]
      exact ht loc hloc hnode

end DiskKeys.FileTree
