import Mathlib.Logic.Relation
import DiskKeys.Proofs.Request.Grammar
import DiskKeys.Proofs.Text.LineEnds

/-! # What does not matter in a request

    Of a line it matters only whether it is the header, whether it starts
    with a bracket, and which field it holds, all of it but for the blanks
    around (`SameLine`).  Of lines in a row it matters which fields they
    give, once read from the start and once as lines of the section
    (`SameFields`), and this is kept by whatever lines stand before them.
    So a request may be laid out anew, by carriage returns, blanks, lines
    before the section, lines in it that hold no field, and any text after
    it, and is read as before (`parse_of_relayout`). -/

namespace DiskKeys.Request

/-! ## The fields that lines give -/

/-- The field that a line holds, but for the blanks around it. -/
def fieldIn? (line : List Char) : Option Field :=
  Field.ofLine? (Text.trim line)

/-- The fields of lines of a section, up to the next bracket. -/
def sectionFields (lines : List (List Char)) : List Field :=
  ((lines.map Text.trim).takeWhile fun line => line.head? ≠ some '[').filterMap Field.ofLine?

/-- The fields that lines give, if they have the section. -/
def fieldsIn? (lines : List (List Char)) : Option (List Field) :=
  (sectionLines? (lines.map Text.trim)).map (List.filterMap Field.ofLine?)

theorem sectionFields_cons (line : List Char) (rest : List (List Char)) :
    sectionFields (line :: rest) =
      if (Text.trim line).head? = some '[' then []
      else (fieldIn? line).toList ++ sectionFields rest := by
  rw [sectionFields, List.map_cons, List.takeWhile_cons]
  by_cases hbracket : (Text.trim line).head? = some '['
  · rw [if_pos hbracket, if_neg (by simpa using hbracket), List.filterMap_nil]
  · rw [if_neg hbracket, if_pos (decide_eq_true hbracket)]
    cases hfield : fieldIn? line with
    | none => exact List.filterMap_cons_none (f := Field.ofLine?) hfield
    | some f => exact List.filterMap_cons_some (f := Field.ofLine?) hfield

theorem fieldsIn?_cons (line : List Char) (rest : List (List Char)) :
    fieldsIn? (line :: rest) =
      if Text.trim line = sectionHeader.toList then some (sectionFields rest)
      else fieldsIn? rest := by
  rw [fieldsIn?, List.map_cons, sectionLines?, List.dropWhile_cons]
  by_cases hheader : Text.trim line = sectionHeader.toList
  · rw [if_pos hheader, if_neg (by simpa using hheader)]
    rfl
  · rw [if_neg hheader, if_pos (decide_eq_true hheader)]
    rfl

/-- Lines in a row that give the same fields, read from the start or as
    lines of the section. -/
structure SameFields (lines lines' : List (List Char)) : Prop where
  whole : fieldsIn? lines' = fieldsIn? lines
  inside : sectionFields lines' = sectionFields lines

/-- They still do behind another line. -/
theorem SameFields.cons {lines lines' : List (List Char)} (h : SameFields lines lines')
    (line : List Char) : SameFields (line :: lines) (line :: lines') where
  whole := by rw [fieldsIn?_cons, fieldsIn?_cons, h.whole, h.inside]
  inside := by rw [sectionFields_cons, sectionFields_cons, h.inside]

theorem SameFields.append {lines lines' : List (List Char)} (h : SameFields lines lines')
    (before : List (List Char)) : SameFields (before ++ lines) (before ++ lines') := by
  induction before with
  | nil => exact h
  | cons line rest ih => exact ih.cons line

theorem sectionFields_append_congr {lines lines' : List (List Char)}
    (h : sectionFields lines' = sectionFields lines) (before : List (List Char)) :
    sectionFields (before ++ lines') = sectionFields (before ++ lines) := by
  induction before with
  | nil => exact h
  | cons line rest ih =>
      rw [List.cons_append, List.cons_append, sectionFields_cons, sectionFields_cons, ih]

/-- Behind a header it is enough that they give the same fields as lines of
    the section. -/
theorem fieldsIn?_append_of_header {before lines lines' : List (List Char)}
    (hheader : sectionHeader.toList ∈ before.map Text.trim)
    (h : sectionFields lines' = sectionFields lines) :
    fieldsIn? (before ++ lines') = fieldsIn? (before ++ lines) := by
  induction before with
  | nil => exact absurd hheader List.not_mem_nil
  | cons line rest ih =>
      rw [List.cons_append, List.cons_append, fieldsIn?_cons, fieldsIn?_cons,
        sectionFields_append_congr h]
      by_cases hline : Text.trim line = sectionHeader.toList
      · rw [if_pos hline, if_pos hline]
      · rw [if_neg hline, if_neg hline]
        exact ih ((List.mem_cons.mp hheader).resolve_left (Ne.symm hline))

/-- Lines that are no header do not matter before the section. -/
theorem fieldsIn?_append_of_no_header {before lines : List (List Char)}
    (h : sectionHeader.toList ∉ before.map Text.trim) :
    fieldsIn? (before ++ lines) = fieldsIn? lines := by
  induction before with
  | nil => rfl
  | cons line rest ih =>
      rw [List.map_cons, List.mem_cons, not_or] at h
      rw [List.cons_append, fieldsIn?_cons, if_neg (Ne.symm h.1), ih h.2]

/-! ## Lines that hold no field -/

/-- A line that says nothing in a section: it does not start with a
    bracket, and it has no equals sign or not the word for a key before the
    first one. -/
structure Idle (line : List Char) : Prop where
  noBracket : (Text.trim line).head? ≠ some '['
  noField : '=' ∉ line ∨ ∃ word value, line = word ++ '=' :: value ∧ '=' ∉ word ∧
    ∀ key : Key, Text.trim word ≠ key.label.toList

section Around

variable {α : Type} {x : α} {front core back before after : List α}

/-- What stands in front of a list without `x` stands in front of the `x`. -/
theorem exists_of_front_append_eq (hx : x ∉ front) (h : front ++ core = before ++ x :: after) :
    ∃ before', before = front ++ before' ∧ core = before' ++ x :: after := by
  rcases List.append_eq_append_iff.mp h with ⟨rest, hbefore, hcore⟩ | ⟨rest, hfront, hrest⟩
  · exact ⟨rest, hbefore, hcore⟩
  · cases rest with
    | nil => exact ⟨[], by rw [hfront, List.append_nil, List.append_nil], hrest.symm⟩
    | cons y rest =>
        obtain rfl : x = y := (List.cons.inj hrest).1
        exact absurd (by rw [hfront]; simp) hx

/-- What stands behind a list without `x` stands behind the `x`. -/
theorem exists_of_append_back_eq (hx : x ∉ back) (h : core ++ back = before ++ x :: after) :
    ∃ after', after = after' ++ back ∧ core = before ++ x :: after' := by
  rcases List.append_eq_append_iff.mp h with ⟨rest, -, hback⟩ | ⟨rest, hcore, hrest⟩
  · exact absurd (by rw [hback]; simp) hx
  · cases rest with
    | nil => exact absurd (by rw [← List.nil_append back, ← hrest]; simp) hx
    | cons y rest =>
        obtain ⟨rfl, hafter⟩ := List.cons.inj hrest
        exact ⟨rest, hafter, hcore⟩

end Around

theorem not_mem_of_blank {blanks : List Char} (h : ∀ c ∈ blanks, Text.isBlank c = true) {c : Char}
    (hc : Text.isBlank c = false) : c ∉ blanks := by
  intro hmem
  exact absurd ((h c hmem).symm.trans hc) (by decide)

/-- Trimming a line with an equals sign takes blanks from the text on
    either side of the sign. -/
theorem trim_append_cons (word value : List Char) :
    ∃ front back word' value', word = front ++ word' ∧ value = value' ++ back ∧
      (∀ c ∈ front, Text.isBlank c = true) ∧ (∀ c ∈ back, Text.isBlank c = true) ∧
      Text.trim (word ++ '=' :: value) = word' ++ '=' :: value' := by
  obtain ⟨⟨front, back, htext, hfront, hback⟩, -, -⟩ := Text.trims_trim (word ++ '=' :: value)
  have hsign : Text.isBlank '=' = false := by decide
  obtain ⟨word', hword, hrest⟩ :=
    exists_of_front_append_eq (not_mem_of_blank hfront hsign) htext.symm
  obtain ⟨value', hvalue, hcore⟩ :=
    exists_of_append_back_eq (not_mem_of_blank hback hsign) hrest
  exact ⟨front, back, word', value', hword, hvalue, hfront, hback, hcore⟩

theorem fieldIn?_append_cons {word : List Char} (h : '=' ∉ word) (value : List Char) :
    fieldIn? (word ++ '=' :: value) =
      (Key.ofLabel? (Text.trim word)).map fun key => ⟨key, Text.trim value⟩ := by
  obtain ⟨front, back, word', value', rfl, rfl, hfront, hback, htrim⟩ := trim_append_cons word value
  have hfirst : '=' ∉ word' := fun hmem => h (List.mem_append_right front hmem)
  rw [fieldIn?, htrim, ofLine?_append_cons hfirst, Text.trim_blanks_append hfront,
    Text.trim_append_blanks hback]

theorem mem_trim_of_mem {line : List Char} {c : Char} (h : c ∈ line) (hc : Text.isBlank c = false) :
    c ∈ Text.trim line := by
  obtain ⟨⟨front, back, htext, hfront, hback⟩, -, -⟩ := Text.trims_trim line
  rw [htext, List.mem_append, List.mem_append] at h
  exact (h.resolve_left (not_mem_of_blank hfront hc)).resolve_right (not_mem_of_blank hback hc)

/-- A line with an equals sign is no header. -/
theorem trim_ne_header {line : List Char} (h : '=' ∈ line) :
    Text.trim line ≠ sectionHeader.toList := by
  intro hheader
  have hmem := mem_trim_of_mem h (by decide)
  rw [hheader] at hmem
  exact absurd hmem (by decide)

theorem fieldIn?_of_idle {line : List Char} (h : Idle line) : fieldIn? line = none := by
  rcases h.noField with hnone | ⟨word, value, rfl, hfirst, hword⟩
  · have htrim : '=' ∉ Text.trim line := by
      obtain ⟨⟨front, back, htext, -, -⟩, -, -⟩ := Text.trims_trim line
      intro hmem
      refine hnone ?_
      rw [htext]
      exact List.mem_append_right _ (List.mem_append_left _ hmem)
    rw [fieldIn?, Field.ofLine?, dropWhile_ne_of_not_mem htrim]
  · rw [fieldIn?_append_cons hfirst, Option.map_eq_none_iff, Option.eq_none_iff_forall_ne_some]
    intro key hkey
    exact hword key (ofLabel?_eq_some_iff.mp hkey)

/-- A line that says nothing may stand anywhere. -/
theorem sameFields_idle {line : List Char} (h : Idle line) (rest : List (List Char)) :
    SameFields rest (line :: rest) where
  whole := by
    have hheader : Text.trim line ≠ sectionHeader.toList := by
      intro hheader
      exact h.noBracket (by rw [hheader]; rfl)
    rw [fieldsIn?_cons, if_neg hheader]
  inside := by
    rw [sectionFields_cons, if_neg h.noBracket, fieldIn?_of_idle h]
    rfl

theorem idle_nil : Idle [] := ⟨nofun, Or.inl List.not_mem_nil⟩

/-- The fields of a text are those that the lines give that it writes. -/
theorem fields?_eq_of_written {text : String} {lines : List (List Char)}
    (h : Text.Written text.toList lines) : fields? text = fieldsIn? lines := by
  rcases Text.trimmedLines_of_written h with htrim | htrim
  · rw [fields?, htrim]
    rfl
  · -- an empty line behind the last line feed says nothing
    have hidle := ((sameFields_idle idle_nil []).append lines).whole
    rw [List.append_nil] at hidle
    rw [fields?, htrim, ← hidle, fieldsIn?, List.map_append]
    rfl

/-! ## Lines that are laid out anew -/

/-- Blanks are added to a line, at its start or end or around its first
    equals sign. -/
inductive Respaced : List Char → List Char → Prop
  | start {blanks : List Char} (h : ∀ c ∈ blanks, Text.isBlank c = true) (line : List Char) :
      Respaced line (blanks ++ line)
  | stop {blanks : List Char} (h : ∀ c ∈ blanks, Text.isBlank c = true) (line : List Char) :
      Respaced line (line ++ blanks)
  | before {blanks word : List Char} (h : ∀ c ∈ blanks, Text.isBlank c = true)
      (first : '=' ∉ word) (value : List Char) :
      Respaced (word ++ '=' :: value) ((word ++ blanks) ++ '=' :: value)
  | behind {blanks word : List Char} (h : ∀ c ∈ blanks, Text.isBlank c = true)
      (first : '=' ∉ word) (value : List Char) :
      Respaced (word ++ '=' :: value) (word ++ '=' :: (blanks ++ value))

/-- Lines of which all that matters is the same. -/
structure SameLine (line line' : List Char) : Prop where
  header : Text.trim line' = sectionHeader.toList ↔ Text.trim line = sectionHeader.toList
  bracket : (Text.trim line').head? = (Text.trim line).head?
  field : fieldIn? line' = fieldIn? line

theorem sameLine_of_trim_eq {line line' : List Char} (h : Text.trim line' = Text.trim line) :
    SameLine line line' := by
  refine ⟨?_, ?_, ?_⟩
  · rw [h]
  · rw [h]
  · rw [fieldIn?, fieldIn?, h]

theorem find?_append_blanks_append {blanks : List Char} (h : ∀ c ∈ blanks, Text.isBlank c = true)
    (left right : List Char) :
    (left ++ (blanks ++ right)).find? (fun c => !Text.isBlank c) =
      (left ++ right).find? fun c => !Text.isBlank c := by
  have hnone : blanks.find? (fun c => !Text.isBlank c) = none :=
    List.find?_eq_none.mpr fun c hc => by simp [h c hc]
  rw [List.find?_append, List.find?_append, hnone, Option.none_or, ← List.find?_append]

/-- Blanks do not matter to a line. -/
theorem Respaced.sameLine {line line' : List Char} (h : Respaced line line') :
    SameLine line line' := by
  cases h with
  | start h => exact sameLine_of_trim_eq (Text.trim_blanks_append h _)
  | stop h => exact sameLine_of_trim_eq (Text.trim_append_blanks h _)
  | @before blanks word h first value =>
      have hfirst : '=' ∉ word ++ blanks := by
        rw [List.mem_append, not_or]
        exact ⟨first, not_mem_of_blank h (by decide)⟩
      refine ⟨iff_of_false (trim_ne_header (by simp)) (trim_ne_header (by simp)), ?_, ?_⟩
      · rw [Text.head?_trim, Text.head?_trim, List.append_assoc, find?_append_blanks_append h]
      · rw [fieldIn?_append_cons hfirst, fieldIn?_append_cons first, Text.trim_append_blanks h]
  | @behind blanks word h first value =>
      refine ⟨iff_of_false (trim_ne_header (by simp)) (trim_ne_header (by simp)), ?_, ?_⟩
      · rw [Text.head?_trim, Text.head?_trim, List.append_cons, find?_append_blanks_append h,
          ← List.append_cons]
      · rw [fieldIn?_append_cons first, fieldIn?_append_cons first, Text.trim_blanks_append h]

theorem SameLine.sameFields {line line' : List Char} (h : SameLine line line')
    (rest : List (List Char)) : SameFields (line :: rest) (line' :: rest) where
  whole := by
    simp only [fieldsIn?_cons, h.header]
  inside := by
    simp only [sectionFields_cons, h.bracket, h.field]

/-- A change of the lines of a request that does not change what it says. -/
inductive Edit : List (List Char) → List (List Char) → Prop
  /-- Blanks are added to a line. -/
  | respace (before after : List (List Char)) {line line' : List Char} (h : Respaced line line') :
      Edit (before ++ line :: after) (before ++ line' :: after)
  /-- A line that is no header is put in before the first header. -/
  | preface {before : List (List Char)} (after : List (List Char)) {line : List Char}
      (early : ∀ other ∈ before, Text.trim other ≠ sectionHeader.toList)
      (h : Text.trim line ≠ sectionHeader.toList) :
      Edit (before ++ after) (before ++ line :: after)
  /-- A line that says nothing is put in. -/
  | remark (before after : List (List Char)) {line : List Char} (h : Idle line) :
      Edit (before ++ after) (before ++ line :: after)
  /-- What follows a line with a bracket behind a header is replaced, and so
      is that line itself as long as the new one starts with a bracket. -/
  | rest {before : List (List Char)} (after after' : List (List Char)) {line line' header : List Char}
      (late : header ∈ before) (hheader : Text.trim header = sectionHeader.toList)
      (h : (Text.trim line).head? = some '[') (h' : (Text.trim line').head? = some '[') :
      Edit (before ++ line :: after) (before ++ line' :: after')

/-- An edit of the lines does not change the fields that they give. -/
theorem Edit.fieldsIn?_eq {lines lines' : List (List Char)} (h : Edit lines lines') :
    fieldsIn? lines' = fieldsIn? lines := by
  cases h with
  | respace before after h => exact ((h.sameLine.sameFields after).append before).whole
  | @preface before after line early h =>
      have hbefore : sectionHeader.toList ∉ before.map Text.trim := by
        simpa using early
      rw [fieldsIn?_append_of_no_header hbefore, fieldsIn?_append_of_no_header hbefore,
        fieldsIn?_cons, if_neg h]
  | remark before after h => exact ((sameFields_idle h after).append before).whole
  | rest after after' late hheader h h' =>
      refine fieldsIn?_append_of_header (List.mem_map.mpr ⟨_, late, hheader⟩) ?_
      rw [sectionFields_cons, sectionFields_cons, if_pos h, if_pos h']

/-- A change of a text: carriage returns are put in front of its line
    feeds, or its lines are edited. -/
inductive Relayout : String → String → Prop
  | returns (text : String) : Relayout text (.ofList (Text.withReturns text.toList))
  | edit {text text' : String} {lines lines' : List (List Char)}
      (h : Text.Written text.toList lines) (h' : Text.Written text'.toList lines')
      (change : Edit lines lines') : Relayout text text'

/-- One change does not change the fields. -/
theorem Relayout.fields?_eq {text text' : String} (h : Relayout text text') :
    fields? text' = fields? text := by
  cases h with
  | returns =>
      obtain ⟨hlines, hreturns⟩ := Text.written_lines text.toList
      rw [← String.toList_ofList (l := Text.withReturns text.toList)] at hreturns
      rw [fields?_eq_of_written hlines, fields?_eq_of_written hreturns]
  | edit h h' change =>
      rw [fields?_eq_of_written h, fields?_eq_of_written h', change.fieldsIn?_eq]

/-- Nothing but the fields matters to what is read. -/
theorem parse_congr {text text' : String} (h : fields? text' = fields? text) (id marker : String) :
    parse id text' marker = parse id text marker := by
  have hparse : ∀ text : String, parse id text marker =
      (fields? text).elim (.error .missingSection) (ofFields id marker) := by
    intro text
    unfold parse fields?
    cases sectionLines? (Text.trimmedLines text.toList) <;> rfl
  rw [hparse, hparse, h]

/-- **Layout and surrounding text do not matter.**  After changes in a row a
    text is read as before, whether it is accepted or rejected. -/
theorem parse_of_relayout {contents contents' : String}
    (h : Relation.ReflTransGen Relayout contents contents') (id marker : String) :
    parse id contents' marker = parse id contents marker := by
  induction h with
  | refl => rfl
  | tail _ hchange ih => rw [parse_congr hchange.fields?_eq, ih]

/-- The lines of a text are those between its line feeds. -/
theorem Relayout.ofLines {text text' : String}
    (change : Edit (Text.lines text.toList) (Text.lines text'.toList)) : Relayout text text' :=
  .edit (Text.written_lines _).1 (Text.written_lines _).1 change

/-- A request with all that does not matter is read like the bare one. -/
theorem parse_of_relayout_adorned :
    parse "ask.1" "A=0\n[Ask]\r\nSocket =s\r\nB=1\n[[\nSocket=t" "boot"
      = parse "ask.1" "[Ask]\nSocket=s\n[C]" "boot" := by
  have hreturns : Relayout "[Ask]\nSocket=s\n[C]" "[Ask]\r\nSocket=s\r\n[C]" := .returns _
  have hpreface : Relayout "[Ask]\r\nSocket=s\r\n[C]" "A=0\n[Ask]\r\nSocket=s\r\n[C]" :=
    .ofLines (@Edit.preface [] _ _ nofun (by decide))
  have hrespace : Relayout "A=0\n[Ask]\r\nSocket=s\r\n[C]" "A=0\n[Ask]\r\nSocket =s\r\n[C]" :=
    .ofLines (.respace ["A=0".toList, "[Ask]\r".toList] _
      (@Respaced.before [' '] "Socket".toList (List.forall_mem_singleton.mpr (by decide))
        (by decide) _))
  have hremark : Relayout "A=0\n[Ask]\r\nSocket =s\r\n[C]"
      "A=0\n[Ask]\r\nSocket =s\r\nB=1\n[C]" :=
    .ofLines (.remark ["A=0".toList, "[Ask]\r".toList, "Socket =s\r".toList] _
      ⟨by decide, Or.inr ⟨['B'], ['1'], rfl, by decide, fun key => by cases key <;> decide⟩⟩)
  have hrest : Relayout "A=0\n[Ask]\r\nSocket =s\r\nB=1\n[C]"
      "A=0\n[Ask]\r\nSocket =s\r\nB=1\n[[\nSocket=t" :=
    .ofLines (@Edit.rest ["A=0".toList, "[Ask]\r".toList, "Socket =s\r".toList, "B=1".toList]
      _ _ _ _ "[Ask]\r".toList (by decide) (by decide) (by decide) (by decide))
  exact parse_of_relayout (((((Relation.ReflTransGen.single hreturns).tail hpreface).tail
    hrespace).tail hremark).tail hrest) "ask.1" "boot"

end DiskKeys.Request
