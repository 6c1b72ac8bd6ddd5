import DiskKeys.Surroundings
import DiskKeys.Proofs.Files.Operations
import DiskKeys.Proofs.Notices

/-! # What changes do, and what the watch learns of it

    Every change that can be made has one of five effects on the tree, and
    the watch is told of it accordingly (`Effect`, `effect_of_apply`).
    All of them keep every node in a directory, and all of them keep the
    bargain of the watch: as long as what it was set on exists, that is a
    directory, and every regular file in it is either settled, for whatever
    reason, or the queue tells of it (`Watch.Covers`, `Effect.covers`).  So
    do any number of changes at any times (`Surroundings.Becomes`). -/

namespace DiskKeys

/-- What a change does to a tree, and how the watch is told. -/
inductive Effect (t : FileTree) : FileTree → (Watch → Watch) → Prop where
  | unchanged : Effect t t id
  | written {dir : Location} {name : Name} (mode : Nat) (contents : Bytes)
      (hdir : t.node? dir = some .directory)
      (hold : t.node? (dir ++ [name]) ≠ some .directory) :
      Effect t (t.put (dir ++ [name]) (.file mode contents)) (·.onWritten (dir ++ [name]))
  /-- Something other than a file is new. -/
  | made {dir : Location} {name : Name} {node : Node}
      (hdir : t.node? dir = some .directory) (hold : t.node? (dir ++ [name]) = none)
      (hnode : ∀ mode contents, node ≠ .file mode contents) :
      Effect t (t.put (dir ++ [name]) node) id
  | gone {loc : Location} (hbelow : t.NothingBelow loc) :
      Effect t (t.erase loc) (·.onGone loc)
  | moved {src dir : Location} {name : Name} (directory : Bool)
      (hmovable : t.Movable src dir name) :
      Effect t (t.move src (dir ++ [name])) (·.onMoved src (dir ++ [name]) directory)

/-- Every change that can be made has an effect. -/
theorem effect_of_apply {s s' : Surroundings} {change : Change} (ht : s.world.tree.WellFormed)
    (h : s.apply change = .ok s') :
    ∃ tell, Effect s.world.tree s'.world.tree tell ∧ s'.watch = s.watch.map tell := by
  cases change with
  | put p contents =>
      obtain ⟨⟨t, loc⟩, hwrite, h⟩ := Except.bind_eq_ok.mp h
      cases h
      obtain ⟨dir, name, mode, rfl, hdir, hold, rfl⟩ := FileTree.write_eq_ok hwrite
      exact ⟨_, .written mode contents hdir hold, rfl⟩
  | move src dst =>
      obtain ⟨r, hrename, h⟩ := Except.bind_eq_ok.mp h
      cases h
      rcases FileTree.rename_eq_ok ht hrename with ⟨hsame, htree⟩ | ⟨dir, name, hdst, hmov, htree⟩
      · refine ⟨id, ?_, ?_⟩
        · show Effect _ r.tree id
          rw [htree]
          exact .unchanged
        · show s.watch.map _ = s.watch.map id
          congr 1
          funext w
          exact if_pos hsame.symm
      · refine ⟨_, ?_, rfl⟩
        show Effect _ r.tree _
        rw [htree, hdst]
        exact .moved _ hmov
  | remove p =>
      obtain ⟨⟨t, loc⟩, hremove, h⟩ := Except.bind_eq_ok.mp h
      cases h
      obtain ⟨hnode, rfl⟩ := FileTree.remove_eq_ok hremove
      exact ⟨_, .gone (ht.nothingBelow_of_ne hnode), rfl⟩
  | makeDirectory p =>
      obtain ⟨t, hmake, h⟩ := Except.bind_eq_ok.mp h
      cases h
      obtain ⟨dir, name, hdir, hold, rfl⟩ := FileTree.makeDirectory_eq_ok hmake
      exact ⟨id, .made hdir hold nofun, rfl⟩
  | removeDirectory p =>
      obtain ⟨⟨t, loc⟩, hremove, h⟩ := Except.bind_eq_ok.mp h
      cases h
      obtain ⟨hnames, rfl⟩ := FileTree.removeDirectory_eq_ok hremove
      exact ⟨_, .gone (ht.nothingBelow_of_names hnames), rfl⟩
  | bind p =>
      obtain ⟨w, hbind, h⟩ := Except.bind_eq_ok.mp h
      cases h
      refine ⟨id, ?_, Option.map_id'.symm⟩
      show Effect _ w.tree id
      rcases FileTree.bind_eq_ok hbind with htree | ⟨dir, name, id, hdir, hold, htree⟩
      · rw [htree]
        exact .unchanged
      · rw [htree]
        exact .made hdir hold nofun
  | unbind p =>
      cases h
      exact ⟨id, .unchanged, Option.map_id'.symm⟩

/-- No effect leaves a node hanging in the air. -/
theorem Effect.wellFormed {t t' : FileTree} {tell : Watch → Watch} (h : Effect t t' tell)
    (ht : t.WellFormed) : t'.WellFormed := by
  cases h with
  | unchanged => exact ht
  | written mode contents hdir hold => exact ht.put hdir hold _
  | made hdir hold hnode => exact ht.put hdir (by rw [hold]; exact nofun) _
  | gone hbelow => exact ht.erase hbelow
  | moved directory hmovable => exact ht.move hmovable

/-! ## What the watch is told -/

namespace Watch

@[simp] theorem target_onWritten (w : Watch) (loc : Location) :
    (w.onWritten loc).target = w.target := by
  unfold onWritten
  split <;> rfl

theorem tells_onWritten {w : Watch} {name : Name} (h : w.queue.Tells name) (loc : Location) :
    (w.onWritten loc).queue.Tells name := by
  unfold onWritten
  split
  · exact h.push _ _
  · exact h

/-- A write in the watched directory is told. -/
theorem tells_onWritten_self {w : Watch} {dir : Location} (hdir : w.target = some dir)
    (name : Name) : (w.onWritten (dir ++ [name])).queue.Tells name := by
  have hname : nameOf? dir (dir ++ [name]) = some (some name) := by
    simp [nameOf?]
  rw [onWritten, hdir]
  simp only [Option.bind_some, hname]
  exact EventQueue.tells_push_self _ _ (show EventKind.written ≠ .overflow from nofun) name

theorem onGone_of_ne {w : Watch} {loc : Location} (h : w.target ≠ some loc) :
    w.onGone loc = w := if_neg h

theorem target_onGone_self {w : Watch} {loc : Location} (h : w.target = some loc) :
    (w.onGone loc).target = none := by
  rw [onGone, if_pos h]

theorem target_onMoved_of_none {w : Watch} {src dst : Location} (hne : src ≠ dst)
    (h : w.target = none) (directory : Bool) : (w.onMoved src dst directory).target = none := by
  rw [onMoved, if_neg hne, onGone_of_ne (by simp [h])]
  simp only [h]

/-- The watch is over when what it was set on is replaced. -/
theorem target_onMoved_dst {w : Watch} {src dst : Location} (hne : src ≠ dst)
    (h : w.target = some dst) (directory : Bool) : (w.onMoved src dst directory).target = none := by
  rw [onMoved, if_neg hne]
  simp only [target_onGone_self h]

/-- Otherwise it follows what it was set on. -/
theorem target_onMoved {w : Watch} {src dst dir : Location} (hne : src ≠ dst)
    (hdir : w.target = some dir) (hdst : dir ≠ dst) (directory : Bool) :
    (w.onMoved src dst directory).target = some (FileTree.moved src dst dir) := by
  have hstays : w.onGone dst = w := onGone_of_ne (by simpa [hdir] using hdst)
  rw [onMoved, if_neg hne]
  simp only [hstays, hdir]

theorem tells_onMoved {w : Watch} {src dst dir : Location} {name : Name} (hne : src ≠ dst)
    (hdir : w.target = some dir) (hdst : dir ≠ dst) (directory : Bool)
    (h : w.queue.Tells name) : (w.onMoved src dst directory).queue.Tells name := by
  have hstays : w.onGone dst = w := onGone_of_ne (by simpa [hdir] using hdst)
  rw [onMoved, if_neg hne]
  simp only [hstays, hdir]
  split
  · exact h.push _ _
  · exact h

/-- A move into the watched directory is told. -/
theorem tells_onMoved_self {w : Watch} {src dir : Location} {name : Name}
    (hne : src ≠ dir ++ [name]) (hdir : w.target = some dir) (directory : Bool) :
    (w.onMoved src (dir ++ [name]) directory).queue.Tells name := by
  have hstays : w.onGone (dir ++ [name]) = w := onGone_of_ne (by simp [hdir])
  rw [onMoved, if_neg hne]
  simp only [hstays, hdir, List.dropLast_concat, if_true, List.getLast?_concat]
  exact EventQueue.tells_push_self _ _ (show EventKind.movedIn directory ≠ .overflow from nofun)
    name

/-! ## The bargain of the watch -/

/-- As long as what the watch was set on exists, that is a directory, and
    of every regular file in it that is not settled the queue tells. -/
structure Covers (w : Watch) (t : FileTree) (settled : Name → Prop) : Prop where
  directory : ∀ {dir}, w.target = some dir → t.node? dir = some .directory
  told : ∀ {dir}, w.target = some dir → ∀ {name mode contents},
    t.node? (dir ++ [name]) = some (.file mode contents) → settled name ∨ w.queue.Tells name

theorem covers_of_ended {w : Watch} (h : w.target = none) (t : FileTree) (settled : Name → Prop) :
    w.Covers t settled := by
  constructor
  · intro dir hdir
    exact nomatch h.symm.trans hdir
  · intro dir hdir
    exact nomatch h.symm.trans hdir

end Watch

namespace Watch.Covers

variable {t : FileTree} {w : Watch} {settled : Name → Prop}

/-- The bargain carries over when the watched directory is still there,
    perhaps elsewhere, and every file in it was in it before or is told. -/
theorem carry (h : w.Covers t settled) {w' : Watch} {t' : FileTree} {dir dir' : Location}
    (hdir : w.target = some dir) (hdir' : w'.target = some dir')
    (hsame : t'.node? dir' = t.node? dir)
    (hqueue : ∀ {name}, w.queue.Tells name → w'.queue.Tells name)
    (hfiles : ∀ {name mode contents}, t'.node? (dir' ++ [name]) = some (.file mode contents) →
      t.node? (dir ++ [name]) = some (.file mode contents) ∨ w'.queue.Tells name) :
    w'.Covers t' settled := by
  constructor
  · intro d hd
    cases hdir'.symm.trans hd
    rw [hsame]
    exact h.directory hdir
  · intro d hd name mode contents hfile
    cases hdir'.symm.trans hd
    rcases hfiles hfile with hold | htells
    · exact (h.told hdir hold).imp_right hqueue
    · exact Or.inr htells

/-- Putting something keeps the bargain, if the watch is told when that is
    a file in the watched directory. -/
theorem put (h : w.Covers t settled) {loc : Location} (hloc : loc ≠ [])
    (hold : t.node? loc ≠ some .directory) {node : Node} {w' : Watch}
    (htarget : w'.target = w.target)
    (hqueue : ∀ {name}, w.queue.Tells name → w'.queue.Tells name)
    (hnew : ∀ {dir name mode contents}, w.target = some dir → loc = dir ++ [name] →
      node = .file mode contents → w'.queue.Tells name) :
    w'.Covers (t.put loc node) settled := by
  cases hdir : w.target with
  | none => exact covers_of_ended (htarget.trans hdir) _ _
  | some dir =>
      refine h.carry hdir (htarget.trans hdir) (FileTree.node?_put_of_ne _ _ ?_) hqueue ?_
      · rintro rfl
        exact hold (h.directory hdir)
      · intro name mode contents hfile
        by_cases hput : dir ++ [name] = loc
        · rw [FileTree.node?_put _ _ _ _ (hput ▸ hloc), if_pos hput, Option.some.injEq] at hfile
          exact Or.inr (hnew hdir hput.symm hfile)
        · rw [FileTree.node?_put_of_ne _ _ hput] at hfile
          exact Or.inl hfile

/-- Erasing something keeps the bargain, or ends the watch. -/
theorem erase (h : w.Covers t settled) (loc : Location) :
    (w.onGone loc).Covers (t.erase loc) settled := by
  by_cases hgone : w.target = some loc
  · exact covers_of_ended (target_onGone_self hgone) _ _
  · rw [onGone_of_ne hgone]
    cases hdir : w.target with
    | none => exact covers_of_ended hdir _ _
    | some dir =>
        refine h.carry hdir hdir (FileTree.node?_erase_of_ne _ ?_) (fun htells => htells) ?_
        · rintro rfl
          exact hgone hdir
        · intro name mode contents hfile
          rw [FileTree.node?_erase _ _ _ (by simp)] at hfile
          split_ifs at hfile
          exact Or.inl hfile

/-- A watched directory takes its files along when it is moved itself. -/
theorem move_along (h : w.Covers t settled) {src dir rest : Location} {name : Name}
    (hmovable : t.Movable src dir name) (hdir : w.target = some (src ++ rest))
    (hover : src ++ rest ≠ dir ++ [name]) (directory : Bool) :
    (w.onMoved src (dir ++ [name]) directory).Covers (t.move src (dir ++ [name])) settled := by
  have hafter := target_onMoved hmovable.ne hdir hover directory
  rw [FileTree.moved_append] at hafter
  refine h.carry hdir hafter (FileTree.node?_move_append hmovable rest)
    (tells_onMoved hmovable.ne hdir hover directory) ?_
  intro file mode contents hfile
  rw [List.append_assoc, FileTree.node?_move_append hmovable, ← List.append_assoc] at hfile
  exact Or.inl hfile

/-- What moves elsewhere leaves a watched directory in its place, and the
    watch is told of what is moved into it. -/
theorem move_aside (h : w.Covers t settled) {src dir target : Location} {name : Name}
    (hmovable : t.Movable src dir name) (htarget : w.target = some target)
    (hoff : ¬ src <+: target) (hover : target ≠ dir ++ [name]) (directory : Bool) :
    (w.onMoved src (dir ++ [name]) directory).Covers (t.move src (dir ++ [name])) settled := by
  have hafter := target_onMoved hmovable.ne htarget hover directory
  rw [FileTree.moved_of_not_below _ hoff] at hafter
  -- what is replaced has nothing below it, so not the watched directory
  have hbelow : ¬ dir ++ [name] <+: target := by
    rintro ⟨rest, hrest⟩
    have hnil : rest ≠ [] := by
      rintro rfl
      exact hover (by rw [← hrest, List.append_nil])
    have hdirectory := h.directory htarget
    rw [← hrest, hmovable.nothingBelow rest hnil] at hdirectory
    cases hdirectory
  refine h.carry htarget hafter (FileTree.node?_move_of_not_below hoff hbelow)
    (tells_onMoved hmovable.ne htarget hover directory) ?_
  intro file mode contents hfile
  by_cases hdst : dir ++ [name] <+: target ++ [file]
  · rcases List.prefix_concat_iff.mp hdst with heq | hpre
    · -- the file is the one that was moved
      obtain ⟨rfl, hlast⟩ := List.append_inj' heq rfl
      cases hlast
      exact Or.inr (tells_onMoved_self hmovable.ne htarget directory)
    · exact absurd hpre hbelow
  · by_cases hsrc : src <+: target ++ [file]
    · rw [FileTree.node?_move_src hmovable.ne_nil hsrc hdst] at hfile
      cases hfile
    · rw [FileTree.node?_move_of_not_below hsrc hdst] at hfile
      exact Or.inl hfile

/-- A move keeps the bargain, or ends the watch. -/
theorem move (h : w.Covers t settled) {src dir : Location} {name : Name}
    (hmovable : t.Movable src dir name) (directory : Bool) :
    (w.onMoved src (dir ++ [name]) directory).Covers (t.move src (dir ++ [name])) settled := by
  cases htarget : w.target with
  | none => exact covers_of_ended (target_onMoved_of_none hmovable.ne htarget directory) _ _
  | some target =>
      by_cases hover : target = dir ++ [name]
      · exact covers_of_ended (target_onMoved_dst hmovable.ne (hover ▸ htarget) directory) _ _
      · by_cases hinside : src <+: target
        · obtain ⟨rest, rfl⟩ := hinside
          exact h.move_along hmovable htarget hover directory
        · exact h.move_aside hmovable htarget hinside hover directory

end Watch.Covers

/-- No effect breaks the bargain of the watch. -/
theorem Effect.covers {t t' : FileTree} {tell : Watch → Watch} (h : Effect t t' tell) {w : Watch}
    {settled : Name → Prop} (hw : w.Covers t settled) : (tell w).Covers t' settled := by
  cases h with
  | unchanged => exact hw
  | written mode contents hdir hold =>
      refine hw.put (by simp) hold (w.target_onWritten _) (fun htells => w.tells_onWritten htells _) ?_
      intro dir name mode contents htarget hloc hnode
      rw [hloc]
      exact w.tells_onWritten_self htarget name
  | made hdir hold hnode =>
      refine hw.put (by simp) (by rw [hold]; exact nofun) rfl (fun htells => htells) ?_
      exact fun _ _ hfile => absurd hfile (hnode _ _)
  | gone hbelow => exact hw.erase _
  | moved directory hmovable => exact hw.move hmovable directory

/-! ## While time passes -/

namespace Surroundings

/-- What surroundings become while other programs make changes and time
    passes. -/
inductive Becomes (s : Surroundings) : Surroundings → Prop where
  | refl : Becomes s s
  | change {s' s'' : Surroundings} {change : Change} (h : Becomes s s')
      (happly : s'.apply change = .ok s'') : Becomes s s''
  | wait {s' : Surroundings} (h : Becomes s s') (now : Nat) :
      Becomes s { s' with world := { s'.world with now } }

/-- What is left when a change is tried, whether or not it can be made. -/
def attempt (s : Surroundings) (change : Change) : Surroundings :=
  match s.apply change with
  | .ok s' => s'
  | .error _ => s

theorem becomes_attempt (s : Surroundings) (change : Change) : s.Becomes (s.attempt change) := by
  unfold attempt
  split
  · rename_i happly
    exact .change .refl happly
  · exact .refl

/-- Every node lies in a directory, and the watch, if one is set, keeps its
    bargain. -/
structure Covered (s : Surroundings) (settled : Name → Prop) : Prop where
  wellFormed : s.world.tree.WellFormed
  covers : ∀ {w}, s.watch = some w → w.Covers s.world.tree settled

/-- The bargain stands when more is settled. -/
theorem Covered.mono {s : Surroundings} {settled settled' : Name → Prop} (h : s.Covered settled)
    (hsettled : ∀ {name}, settled name → settled' name) : s.Covered settled' := by
  refine ⟨h.wellFormed, fun hw => ⟨(h.covers hw).directory, ?_⟩⟩
  intro dir hdir name mode contents hfile
  exact ((h.covers hw).told hdir hfile).imp_left hsettled

theorem Becomes.trans {s s' s'' : Surroundings} (h : s.Becomes s') (h' : s'.Becomes s'') :
    s.Becomes s'' := by
  induction h' with
  | refl => exact h
  | change _ happly ih => exact .change ih happly
  | wait _ now ih => exact .wait ih now

theorem Becomes.wellFormed {s s' : Surroundings} (h : s.Becomes s')
    (hs : s.world.tree.WellFormed) : s'.world.tree.WellFormed := by
  induction h with
  | refl => exact hs
  | change _ happly ih =>
      obtain ⟨tell, heffect, -⟩ := effect_of_apply ih happly
      exact heffect.wellFormed ih
  | wait _ now ih => exact ih

theorem Becomes.covered {s s' : Surroundings} {settled : Name → Prop} (h : s.Becomes s')
    (hs : s.Covered settled) : s'.Covered settled := by
  induction h with
  | refl => exact hs
  | change _ happly ih =>
      obtain ⟨tell, heffect, hwatch⟩ := effect_of_apply ih.wellFormed happly
      refine ⟨heffect.wellFormed ih.wellFormed, ?_⟩
      intro w hw
      obtain ⟨w₀, hw₀, rfl⟩ := Option.map_eq_some_iff.mp (hwatch.symm.trans hw)
      exact heffect.covers (ih.covers hw₀)
  | wait _ now ih => exact ⟨ih.wellFormed, ih.covers⟩

end Surroundings

end DiskKeys
