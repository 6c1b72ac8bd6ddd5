import Mathlib.Data.List.Basic
import DiskKeys.Files.Path
import DiskKeys.Proofs.Text.Lines

/-! # Paths into a directory and above it

    The pieces of a path end where a slash follows or the path is over, so
    what is left of a path when it is cut after a part has the first of its
    steps (`steps_take_stop`).  In this way all paths above a path walk a
    first stretch of it (`steps_of_mem_ancestors`).  A name that is joined
    to a directory becomes the last step (`steps_join`) and the last part
    (`parts_join`), so the paths above what lies in a directory are those
    that the directory itself is reached by (`ancestors_join`). -/

namespace DiskKeys.Path

/-! ## Pieces -/

theorem splitOn_append_slash (front back : Bytes) :
    (front ++ slash :: back).splitOn slash = front.splitOn slash ++ back.splitOn slash :=
  List.splitOnP_append_cons front back (by simp)

/-- A located piece ends where a slash follows, or where all is over. -/
theorem stop_of_mem_located {pieces : List Bytes} {start : Nat} {part : Part}
    (h : part ∈ located start pieces) :
    ∃ front back, [slash].intercalate pieces = front ++ back ∧
      part.stop = start + front.length ∧ part.name.length ≤ front.length ∧
      (back = [] ∨ ∃ after, back = slash :: after) := by
  induction pieces generalizing start with
  | nil => exact absurd h List.not_mem_nil
  | cons piece rest ih =>
      rcases List.mem_cons.mp h with rfl | hmem
      · cases rest with
        | nil => exact ⟨piece, [], by simp, rfl, Nat.le_refl _, Or.inl rfl⟩
        | cons next rest =>
            refine ⟨piece, slash :: [slash].intercalate (next :: rest), ?_, rfl, Nat.le_refl _,
              Or.inr ⟨_, rfl⟩⟩
            rw [List.intercalate_cons_cons, List.append_assoc, List.singleton_append]
      · cases rest with
        | nil => exact absurd hmem List.not_mem_nil
        | cons next rest =>
            -- the piece is further on, behind this one and its slash
            obtain ⟨front, back, hjoin, hstop, hname, hback⟩ := ih hmem
            refine ⟨piece ++ slash :: front, back, ?_, ?_, ?_, hback⟩
            · rw [List.intercalate_cons_cons, hjoin, List.append_assoc, List.append_assoc,
                List.singleton_append, List.cons_append]
            · rw [hstop, List.length_append, List.length_cons]
              omega
            · rw [List.length_append, List.length_cons]
              omega

/-! ## Cutting a path -/

theorem mem_parts {p : Path} {part : Part} :
    part ∈ p.parts ↔ part ∈ located 0 (p.bytes.splitOn slash) ∧ part.name ≠ [] ∧
      (part.name ≠ here ∨ part.stop = 1) := by
  simp [parts]

/-- A path that is cut after one of its parts is not empty, and it walks the
    first of its steps. -/
theorem steps_take_stop {p : Path} {part : Part} (h : part ∈ p.parts) :
    part.stop ≤ p.bytes.length ∧ p.bytes.take part.stop ≠ [] ∧
      (Path.mk (p.bytes.take part.stop)).steps <+: p.steps := by
  obtain ⟨hmem, hname, -⟩ := mem_parts.mp h
  obtain ⟨front, back, hjoin, hstop, hlength, hback⟩ := stop_of_mem_located hmem
  rw [List.intercalate_splitOn] at hjoin
  have htake : p.bytes.take part.stop = front := by
    rw [hstop, Nat.zero_add, hjoin, List.take_left]
  refine ⟨?_, ?_, ?_⟩
  · rw [hstop, hjoin, List.length_append]
    omega
  · rw [htake]
    rintro rfl
    exact hname (List.length_eq_zero_iff.mp (Nat.le_zero.mp hlength))
  · rw [htake, steps, steps, hjoin]
    rcases hback with rfl | ⟨after, rfl⟩
    · simp only [List.append_nil, List.prefix_rfl]
    · rw [splitOn_append_slash, List.filter_append]
      exact List.prefix_append _ _

/-- Cutting a path does not move its start. -/
theorem isAbsolute_take_stop {p : Path} {part : Part} (h : part ∈ p.parts) :
    (Path.mk (p.bytes.take part.stop)).isAbsolute = p.isAbsolute := by
  obtain ⟨-, hne, -⟩ := steps_take_stop h
  rw [isAbsolute, isAbsolute, List.head?_take, if_neg]
  intro hzero
  rw [hzero] at hne
  exact hne rfl

/-- A path that leads along another from the same start. -/
structure Along (q p : Path) : Prop where
  steps : q.steps <+: p.steps
  isAbsolute : q.isAbsolute = p.isAbsolute

protected theorem Along.refl (p : Path) : p.Along p :=
  ⟨List.prefix_refl _, rfl⟩

theorem Along.trans {q p r : Path} (h : q.Along p) (h' : p.Along r) : q.Along r :=
  ⟨h.steps.trans h'.steps, h.isAbsolute.trans h'.isAbsolute⟩

theorem along_take_stop {p : Path} {part : Part} (h : part ∈ p.parts) :
    (Path.mk (p.bytes.take part.stop)).Along p :=
  ⟨(steps_take_stop h).2.2, isAbsolute_take_stop h⟩

/-- Where a path starts. -/
def start (p : Path) : Path :=
  if p.isAbsolute then ⟨[slash]⟩ else ⟨[]⟩

theorem along_start (p : Path) : p.start.Along p := by
  unfold start
  by_cases h : p.isAbsolute = true
  · rw [if_pos h]
    exact ⟨List.nil_prefix, h.symm⟩
  · rw [if_neg h]
    exact ⟨List.nil_prefix, (Bool.eq_false_iff.mpr h).symm⟩

/-- The paths by which a directory is reached: itself, without any dots at
    its end, and those above it. -/
def reaches (dir : Path) : List Path :=
  (dir.parts.reverse.map fun part => ⟨dir.bytes.take part.stop⟩) ++ [dir.start]

theorem along_of_mem_reaches {q dir : Path} (h : q ∈ dir.reaches) : q.Along dir := by
  rcases List.mem_append.mp h with hmem | hmem
  · obtain ⟨part, hpart, rfl⟩ := List.mem_map.mp hmem
    exact along_take_stop (List.mem_reverse.mp hpart)
  · rw [List.mem_singleton.mp hmem]
    exact along_start dir

theorem ancestors_subset_reaches (p : Path) : p.ancestors ⊆ p.reaches := by
  intro q hq
  unfold ancestors at hq
  unfold reaches
  cases hparts : p.parts.reverse with
  | nil =>
      rw [hparts] at hq
      exact absurd hq List.not_mem_nil
  | cons part before =>
      rw [hparts] at hq
      exact List.mem_cons_of_mem _ hq

/-- The paths above a path lead along it. -/
theorem along_of_mem_ancestors {q p : Path} (h : q ∈ p.ancestors) : q.Along p :=
  along_of_mem_reaches (ancestors_subset_reaches p h)

/-! ## Joining a name -/

/-- A name that can stand between slashes and means nothing else. -/
structure IsPlain (name : Name) : Prop where
  ne_nil : name ≠ []
  slash_not_mem : slash ∉ name
  ne_here : name ≠ here
  ne_above : name ≠ above

theorem located_append (first : Nat) (pieces more : List Bytes) :
    ∃ next, located first (pieces ++ more) = located first pieces ++ located next more := by
  induction pieces generalizing first with
  | nil => exact ⟨first, rfl⟩
  | cons piece rest ih =>
      obtain ⟨next, hrest⟩ := ih (first + piece.length + 1)
      exact ⟨next, by rw [List.cons_append, located, hrest, located, List.cons_append]⟩

theorem name_mem_of_mem_located {pieces : List Bytes} {first : Nat} {part : Part}
    (h : part ∈ located first pieces) : part.name ∈ pieces := by
  induction pieces generalizing first with
  | nil => exact absurd h List.not_mem_nil
  | cons piece rest ih =>
      rcases List.mem_cons.mp h with rfl | hmem
      · exact List.mem_cons_self
      · exact List.mem_cons_of_mem _ (ih hmem)

/-- A path ends in a plain name, if it ends in a name at all. -/
theorem isPlain_of_fileName? {p : Path} {name : Name} (h : p.fileName? = some name) :
    IsPlain name := by
  unfold fileName? at h
  cases hlast : p.parts.getLast? with
  | none =>
      rw [hlast] at h
      exact nomatch h
  | some part =>
      simp only [hlast, Option.ite_none_left_eq_some, Option.some.injEq, not_or] at h
      obtain ⟨⟨hhere, habove⟩, rfl⟩ := h
      obtain ⟨hmem, hne, -⟩ := mem_parts.mp (List.mem_of_getLast? hlast)
      exact
        { ne_nil := hne
          slash_not_mem := Text.not_mem_of_mem_splitOn (name_mem_of_mem_located hmem)
          ne_here := hhere
          ne_above := habove }

section

variable {name : Name} (hname : IsPlain name) (dir : Path)
include hname

theorem IsPlain.head?_ne : name.head? ≠ some slash :=
  fun h => hname.slash_not_mem (List.mem_of_mem_head? h)

/-- A name that is joined comes behind the directory and a slash, unless the
    slash is there or there is no directory. -/
theorem bytes_join : (dir.join ⟨name⟩).bytes
    = if dir.bytes = [] ∨ dir.endsInSlash = true then dir.bytes ++ name
      else dir.bytes ++ slash :: name := by
  have habs : (Path.mk name).isAbsolute = false := by
    simpa [isAbsolute] using hname.head?_ne
  simp only [join, habs, Bool.false_eq_true, if_false, Bool.or_eq_true, List.isEmpty_iff]
  split_ifs
  · rfl
  · rfl

theorem exists_bytes_join : ∃ back, (dir.join ⟨name⟩).bytes = dir.bytes ++ back := by
  rw [bytes_join hname]
  split_ifs
  · exact ⟨_, rfl⟩
  · exact ⟨_, rfl⟩

/-- The name is the last piece; whatever else changes is an empty one. -/
theorem splitOn_join : ∃ before,
    (dir.join ⟨name⟩).bytes.splitOn slash = before ++ [name] ∧
    (dir.bytes.splitOn slash = before ∨ dir.bytes.splitOn slash = before ++ [[]]) := by
  have hone : name.splitOn slash = [name] := List.splitOn_eq_singleton hname.slash_not_mem
  rw [bytes_join hname]
  by_cases hempty : dir.bytes = []
  · refine ⟨[], ?_, Or.inr (by rw [hempty]; rfl)⟩
    rw [if_pos (Or.inl hempty), hempty]
    exact hone
  · by_cases hslash : dir.endsInSlash = true
    · obtain ⟨front, hfront⟩ := List.getLast?_eq_some_iff.mp (by simpa [endsInSlash] using hslash)
      refine ⟨front.splitOn slash, ?_, Or.inr ?_⟩
      · rw [if_pos (Or.inr hslash), hfront, List.append_assoc, List.singleton_append,
          splitOn_append_slash, hone]
      · rw [hfront, splitOn_append_slash]
        rfl
    · refine ⟨dir.bytes.splitOn slash, ?_, Or.inl rfl⟩
      rw [if_neg (not_or.mpr ⟨hempty, hslash⟩), splitOn_append_slash, hone]

/-- The name is the last step. -/
theorem steps_join : (dir.join ⟨name⟩).steps = dir.steps ++ [name] := by
  obtain ⟨before, hjoin, hdir⟩ := splitOn_join hname dir
  rw [steps, hjoin, List.filter_append, List.filter_cons_of_pos (by simpa using hname.ne_nil),
    List.filter_nil, steps]
  rcases hdir with hdir | hdir
  · rw [hdir]
  · rw [hdir, List.filter_append]
    simp

theorem isAbsolute_join : (dir.join ⟨name⟩).isAbsolute = dir.isAbsolute := by
  by_cases hempty : dir.bytes = []
  · rw [isAbsolute, isAbsolute, bytes_join hname, if_pos (Or.inl hempty), hempty, List.nil_append]
    simpa using hname.head?_ne
  · obtain ⟨back, hbytes⟩ := exists_bytes_join hname dir
    rw [isAbsolute, isAbsolute, hbytes, List.head?_append_of_ne_nil _ hempty]

/-- The name is the last part. -/
theorem parts_join : ∃ stop, (dir.join ⟨name⟩).parts = dir.parts ++ [⟨name, stop⟩] := by
  obtain ⟨before, hjoin, hdir⟩ := splitOn_join hname dir
  obtain ⟨next, hlocated⟩ := located_append 0 before [name]
  refine ⟨next + name.length, ?_⟩
  rw [parts, hjoin, hlocated, List.filter_append, located, located,
    List.filter_cons_of_pos (by simp [hname.ne_nil, hname.ne_here]), List.filter_nil, parts]
  rcases hdir with hdir | hdir
  · rw [hdir]
  · obtain ⟨next', hlocated'⟩ := located_append 0 before [[]]
    rw [hdir, hlocated', List.filter_append]
    simp [located]

/-- What lies in a directory has above it what the directory is reached
    by. -/
theorem ancestors_join : (dir.join ⟨name⟩).ancestors = dir.reaches := by
  obtain ⟨stop, hparts⟩ := parts_join hname dir
  obtain ⟨back, hbytes⟩ := exists_bytes_join hname dir
  have hstart : (if (dir.join ⟨name⟩).isAbsolute then Path.mk [slash] else ⟨[]⟩) = dir.start := by
    rw [isAbsolute_join hname]
    rfl
  unfold ancestors
  rw [hparts, List.reverse_append, hstart]
  show dir.parts.reverse.map _ ++ [dir.start] = dir.reaches
  unfold reaches
  congr 1
  refine List.map_congr_left ?_
  intro part hpart
  -- the directory is not cut any shorter than it is
  rw [hbytes, List.take_append_of_le_length (steps_take_stop (List.mem_reverse.mp hpart)).1]

end

end DiskKeys.Path
