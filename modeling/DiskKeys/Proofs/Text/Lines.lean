import Mathlib.Data.List.Basic
import Mathlib.Data.List.DropRight
import Mathlib.Data.List.Forall2
import DiskKeys.Text.Blank

/-! # Lines without the blanks around them

    What trimming and splitting come to, said without the scans that do it.
    A text is trimmed to its one part that has only blanks before and behind
    it and neither starts nor ends with one (`trim_eq_iff`).  Its lines are
    the one way to take it to pieces at line feeds so that none is left in a
    piece (`trimmedLines_eq_iff`). -/

namespace DiskKeys.Text

/-- Separators are in none of the pieces that they separate. -/
theorem not_mem_of_mem_splitOn {α : Type} [BEq α] [LawfulBEq α] {sep : α} {whole piece : List α}
    (h : piece ∈ whole.splitOn sep) : sep ∉ piece := by
  induction whole generalizing piece with
  | nil =>
      obtain rfl : piece = [] := by simpa using h
      exact List.not_mem_nil
  | cons x rest ih =>
      rw [List.splitOn, List.splitOnP_cons_eq_if_modifyHead] at h
      obtain ⟨first, others, hrest⟩ :=
        List.exists_cons_of_ne_nil (List.splitOnP_ne_nil (· == sep) rest)
      by_cases hx : x = sep
      · rw [if_pos (by simpa using hx)] at h
        rcases List.mem_cons.mp h with rfl | hmem
        · exact List.not_mem_nil
        · exact ih hmem
      · rw [if_neg (by simpa using hx), hrest, List.modifyHead_cons] at h
        have hfirst : sep ∉ first := ih (by rw [List.splitOn, hrest]; exact List.mem_cons_self)
        rcases List.mem_cons.mp h with rfl | hmem
        · intro hsep
          rcases List.mem_cons.mp hsep with heq | hin
          · exact hx heq.symm
          · exact hfirst hin
        · exact ih (by rw [List.splitOn, hrest]; exact List.mem_cons_of_mem _ hmem)

/-- The first separator tells what stands in front of it from what stands
    behind it. -/
theorem append_cons_inj {α : Type} [BEq α] [LawfulBEq α] {sep : α}
    {front front' back back' : List α} (hfront : sep ∉ front) (hfront' : sep ∉ front') :
    front ++ sep :: back = front' ++ sep :: back' ↔ front = front' ∧ back = back' := by
  constructor
  · intro h
    have hsplit := congrArg (List.splitOn sep) h
    rw [List.splitOn_append_cons_self_of_not_mem hfront,
      List.splitOn_append_cons_self_of_not_mem hfront'] at hsplit
    obtain rfl : front = front' := (List.cons.inj hsplit).1
    exact ⟨rfl, List.cons.inj (List.append_cancel_left h) |>.2⟩
  · rintro ⟨rfl, rfl⟩
    rfl

/-! ## Trimming -/

/-- A part of a text has only blanks around it, and neither starts nor ends
    with one. -/
structure Trims (text core : List Char) : Prop where
  around : ∃ front back, text = front ++ (core ++ back) ∧
    (∀ c ∈ front, isBlank c = true) ∧ ∀ c ∈ back, isBlank c = true
  start : ∀ c ∈ core.head?, isBlank c = false
  stop : ∀ c ∈ core.getLast?, isBlank c = false

theorem trimEnd_eq_rdropWhile (text : List Char) : trimEnd text = text.rdropWhile isBlank := rfl

theorem trims_trim (text : List Char) : Trims text (trim text) := by
  have hstart : ∀ c ∈ (text.dropWhile isBlank).head?, isBlank c = false := by
    intro c hc
    have hfirst := List.head?_dropWhile_not isBlank text
    rwa [Option.mem_def.mp hc] at hfirst
  rw [trim, trimEnd_eq_rdropWhile]
  refine ⟨⟨text.takeWhile isBlank, (text.dropWhile isBlank).rtakeWhile isBlank, ?_, ?_, ?_⟩, ?_, ?_⟩
  · rw [List.rdropWhile_append_rtakeWhile, List.takeWhile_append_dropWhile]
  · exact fun c hc => List.mem_takeWhile_imp hc
  · exact fun c hc => List.mem_rtakeWhile_imp hc
  · -- what is left at the end starts where it started before
    intro c hc
    refine hstart c ?_
    obtain ⟨back, hback⟩ := List.rdropWhile_prefix isBlank (l := text.dropWhile isBlank)
    obtain ⟨rest, hrest⟩ := List.head?_eq_some_iff.mp hc
    rw [← hback, hrest]
    rfl
  · intro c hc
    obtain ⟨init, hinit⟩ := List.getLast?_eq_some_iff.mp hc
    have hlast := List.rdropWhile_last_not isBlank (text.dropWhile isBlank) (by rw [hinit]; simp)
    simpa [hinit] using hlast

/-- There is only one such part. -/
theorem Trims.trim_eq {text core : List Char} (h : Trims text core) : trim text = core := by
  obtain ⟨⟨front, back, rfl, hfront, hback⟩, hstart, hstop⟩ := h
  rw [trim, List.dropWhile_append_of_pos hfront, trimEnd]
  cases core with
  | nil =>
      rw [List.nil_append, List.dropWhile_eq_nil_iff.mpr hback]
      rfl
  | cons c rest =>
      have hc : isBlank c = false := hstart c rfl
      have hend : (c :: rest).reverse.dropWhile isBlank = (c :: rest).reverse := by
        cases hrev : (c :: rest).reverse with
        | nil => rfl
        | cons last others =>
            have hlast : isBlank last = false :=
              hstop last (by rw [← List.head?_reverse, hrev]; rfl)
            rw [List.dropWhile_cons, hlast]
            rfl
      rw [List.cons_append, List.dropWhile_cons, hc, if_neg Bool.false_ne_true, ← List.cons_append,
        List.reverse_append, List.dropWhile_append_of_pos (by simpa using hback), hend,
        List.reverse_reverse]

theorem trim_eq_iff {text core : List Char} : trim text = core ↔ Trims text core := by
  constructor
  · rintro rfl
    exact trims_trim text
  · exact Trims.trim_eq

/-- Blanks in front of a text are trimmed away. -/
theorem trim_blanks_append {blanks : List Char} (h : ∀ c ∈ blanks, isBlank c = true)
    (text : List Char) : trim (blanks ++ text) = trim text := by
  obtain ⟨⟨front, back, htext, hfront, hback⟩, hstart, hstop⟩ := trims_trim text
  refine Trims.trim_eq ⟨⟨blanks ++ front, back, ?_, ?_, hback⟩, hstart, hstop⟩
  · rw [List.append_assoc, ← htext]
  · intro c hc
    exact (List.mem_append.mp hc).elim (h c) (hfront c)

/-- Blanks behind a text are trimmed away. -/
theorem trim_append_blanks {blanks : List Char} (h : ∀ c ∈ blanks, isBlank c = true)
    (text : List Char) : trim (text ++ blanks) = trim text := by
  obtain ⟨⟨front, back, htext, hfront, hback⟩, hstart, hstop⟩ := trims_trim text
  refine Trims.trim_eq ⟨⟨front, back ++ blanks, ?_, hfront, ?_⟩, hstart, hstop⟩
  · rw [← List.append_assoc _ back, ← List.append_assoc front, ← htext]
  · intro c hc
    exact (List.mem_append.mp hc).elim (hback c) (h c)

/-- A trimmed text starts with the first character that is not blank. -/
theorem head?_trim (text : List Char) : (trim text).head? = text.find? fun c => !isBlank c := by
  obtain ⟨⟨front, back, htext, hfront, hback⟩, hstart, -⟩ := trims_trim text
  have hnone : ∀ {blanks : List Char}, (∀ c ∈ blanks, isBlank c = true) →
      blanks.find? (fun c => !isBlank c) = none := by
    intro blanks h
    exact List.find?_eq_none.mpr fun c hc => by simp [h c hc]
  conv => rhs; rw [htext, List.find?_append, hnone hfront, Option.none_or, List.find?_append,
    hnone hback, Option.or_none]
  cases hcore : trim text with
  | nil => rfl
  | cons c rest =>
      have hc : isBlank c = false := hstart c (by rw [hcore]; rfl)
      rw [List.find?_cons_of_pos (by rw [hc]; rfl), List.head?_cons]

/-! ## Lines -/

/-- A text has these lines, once the blanks around each are taken away. -/
def HasLines (text : List Char) (lines : List (List Char)) : Prop :=
  ∃ pieces, pieces ≠ [] ∧ ['\n'].intercalate pieces = text ∧ (∀ piece ∈ pieces, '\n' ∉ piece) ∧
    List.Forall₂ Trims pieces lines

theorem forall₂_trims_iff {pieces lines : List (List Char)} :
    List.Forall₂ Trims pieces lines ↔ pieces.map trim = lines := by
  rw [← congrFun₂ List.forall₂_eq_eq_eq (pieces.map trim) lines, List.forall₂_map_left_iff]
  simp only [trim_eq_iff]

theorem trimmedLines_eq_iff {text : List Char} {lines : List (List Char)} :
    trimmedLines text = lines ↔ HasLines text lines := by
  constructor
  · rintro rfl
    exact ⟨text.splitOn '\n', List.splitOnP_ne_nil _ _, List.intercalate_splitOn _,
      fun piece => not_mem_of_mem_splitOn, forall₂_trims_iff.mpr rfl⟩
  · rintro ⟨pieces, hpieces, rfl, hclean, htrims⟩
    rw [trimmedLines, Text.lines, List.splitOn_intercalate _ hclean hpieces]
    exact forall₂_trims_iff.mp htrims

/-- A text has no other lines. -/
theorem HasLines.unique {text : List Char} {lines lines' : List (List Char)}
    (h : HasLines text lines) (h' : HasLines text lines') : lines = lines' :=
  (trimmedLines_eq_iff.mpr h).symm.trans (trimmedLines_eq_iff.mpr h')

end DiskKeys.Text
