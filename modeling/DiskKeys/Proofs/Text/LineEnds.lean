import DiskKeys.Proofs.Text.Lines

/-! # Lines and their ends

    A text is written line by line, and a line may be ended in more than one
    way: by a line feed, by a carriage return and a line feed, or, if it is
    the last, by the end of the text.  A text can be read so in more than
    one way too, for a carriage return may belong to the line or to its
    end; but whichever way, its trimmed lines are those of the text
    (`trimmedLines_of_written`).  Texts that are written one after the
    other, each with a line feed behind it, are again its lines as long as
    there is none in them (`lines_flatMap_feed_eq_iff`). -/

namespace DiskKeys.Text

theorem lines_of_clean {line : List Char} (clean : '\n' ∉ line) : lines line = [line] :=
  List.splitOn_eq_singleton clean

theorem lines_append_cons {line : List Char} (clean : '\n' ∉ line) (text : List Char) :
    lines (line ++ '\n' :: text) = line :: lines text :=
  List.splitOn_append_cons_self_of_not_mem clean text

/-- What stands in front of a text on its first line is part of that line
    only. -/
theorem lines_append {front : List Char} (clean : '\n' ∉ front) (text : List Char) :
    lines (front ++ text) = (lines text).modifyHead (front ++ ·) := by
  induction front with
  | nil => exact (congrFun List.modifyHead_id (lines text)).symm
  | cons c front ih =>
      have hc : ¬ (c == '\n') = true := by
        intro hfeed
        exact clean (beq_iff_eq.mp hfeed ▸ List.mem_cons_self)
      rw [List.cons_append, lines, List.splitOn_cons_eq_if_modifyHead, if_neg hc, ← lines,
        ih fun hmem => clean (List.mem_cons_of_mem c hmem), List.modifyHead_modifyHead]
      rfl

/-! ## Texts that are each ended by a line feed -/

theorem lines_flatMap_feed (texts : List (List Char)) :
    lines (texts.flatMap (· ++ ['\n'])) = texts.flatMap lines ++ [[]] := by
  induction texts with
  | nil => rfl
  | cons text rest ih =>
      rw [List.flatMap_cons, List.append_assoc, List.singleton_append, lines,
        List.splitOn_append_cons_self, ← lines, ← lines, ih, List.flatMap_cons, List.append_assoc]

/-- Such texts are the lines of what they make up exactly when there is no
    line feed in them. -/
theorem lines_flatMap_feed_eq_iff {texts : List (List Char)} :
    lines (texts.flatMap (· ++ ['\n'])) = texts ++ [[]] ↔ ∀ text ∈ texts, '\n' ∉ text := by
  constructor
  · intro h text hmem
    have hline : text ∈ lines (texts.flatMap (· ++ ['\n'])) := by
      rw [h]
      exact List.mem_append_left [[]] hmem
    exact not_mem_of_mem_splitOn hline
  · intro hclean
    have hone : ∀ text ∈ texts, lines text = [text] :=
      fun text hmem => lines_of_clean (hclean text hmem)
    rw [lines_flatMap_feed, List.flatMap_congr hone, List.flatMap_singleton']

/-! ## The lines that a text writes -/

/-- A text writes lines one after the other.  A line feed ends each of
    them, perhaps behind a carriage return; the last one may do without. -/
inductive Written : List Char → List (List Char) → Prop
  | nil : Written [] []
  | last {line : List Char} (clean : '\n' ∉ line) : Written line [line]
  | feed {line text : List Char} {lines : List (List Char)} (clean : '\n' ∉ line)
      (rest : Written text lines) : Written (line ++ '\n' :: text) (line :: lines)
  | returnFeed {line text : List Char} {lines : List (List Char)} (clean : '\n' ∉ line)
      (rest : Written text lines) : Written (line ++ '\r' :: '\n' :: text) (line :: lines)

/-- Whatever ends them, the lines that a text writes are its lines, perhaps
    without an empty one behind the last line feed. -/
theorem trimmedLines_of_written {text : List Char} {lines : List (List Char)}
    (h : Written text lines) :
    trimmedLines text = lines.map trim ∨ trimmedLines text = lines.map trim ++ [[]] := by
  have hmore : ∀ {line text : List Char} {lines : List (List Char)},
      trimmedLines text = lines.map trim ∨ trimmedLines text = lines.map trim ++ [[]] →
      trim line :: trimmedLines text = (line :: lines).map trim ∨
        trim line :: trimmedLines text = (line :: lines).map trim ++ [[]] := by
    rintro line text lines (h | h)
    · exact Or.inl (congrArg (trim line :: ·) h)
    · exact Or.inr (congrArg (trim line :: ·) h)
  induction h with
  | nil => exact Or.inr rfl
  | last clean => exact Or.inl (by rw [trimmedLines, lines_of_clean clean])
  | feed clean _ ih =>
      rw [trimmedLines, lines_append_cons clean]
      exact hmore ih
  | @returnFeed line text _ clean _ ih =>
      -- the carriage return counts as the last character of the line, and is blank
      have hline : '\n' ∉ line ++ ['\r'] := by
        simpa using clean
      have htext : line ++ '\r' :: '\n' :: text = (line ++ ['\r']) ++ '\n' :: text := by
        rw [List.append_assoc, List.singleton_append]
      rw [htext, trimmedLines, lines_append_cons hline, List.map_cons,
        trim_append_blanks (List.forall_mem_singleton.mpr (by decide))]
      exact hmore ih

/-! ## Carriage returns in front of all line feeds -/

/-- A text with a carriage return put in front of every line feed. -/
def withReturns (text : List Char) : List Char :=
  text.flatMap fun c => if c = '\n' then ['\r', '\n'] else [c]

theorem withReturns_of_clean {line : List Char} (clean : '\n' ∉ line) : withReturns line = line := by
  have hone : ∀ c ∈ line, (if c = '\n' then ['\r', '\n'] else [c]) = [c] :=
    fun c hc => if_neg (ne_of_mem_of_not_mem hc clean)
  rw [withReturns, List.flatMap_congr hone, List.flatMap_singleton']

theorem withReturns_append_cons {line : List Char} (clean : '\n' ∉ line) (text : List Char) :
    withReturns (line ++ '\n' :: text) = line ++ '\r' :: '\n' :: withReturns text := by
  conv => lhs; rw [withReturns, List.flatMap_append, List.flatMap_cons]
  exact congrArg (· ++ '\r' :: '\n' :: withReturns text) (withReturns_of_clean clean)

/-- With and without them a text writes its lines. -/
theorem written_lines (text : List Char) :
    Written text (lines text) ∧ Written (withReturns text) (lines text) := by
  by_cases hfeed : '\n' ∈ text
  · obtain ⟨line, rest, htext, clean⟩ := List.eq_append_cons_of_mem hfeed
    have hshorter : rest.length < text.length := by
      rw [htext, List.length_append, List.length_cons]
      omega
    obtain ⟨hrest, hreturns⟩ := written_lines rest
    rw [htext, withReturns_append_cons clean, lines_append_cons clean]
    exact ⟨.feed clean hrest, .returnFeed clean hreturns⟩
  · rw [withReturns_of_clean hfeed, lines_of_clean hfeed]
    exact ⟨.last hfeed, .last hfeed⟩
termination_by text.length

end DiskKeys.Text
