import DiskKeys.Proofs.Request
import DiskKeys.Proofs.Text.Lines

/-! # The grammar of requests

    The lines of a request, its section and the fields in it are given here
    by what they look like and not by how they are found: `HasSection` cuts
    the lines at the first header and at the next bracket, `Says` goes
    through the section line by line, and a line holds a field if it is a
    known word, an equals sign and a value (`HoldsField`).  Each of these is
    what one of the scanning functions computes (`sectionLines?_eq_some_iff`,
    `says_iff`, `ofLine?_eq_some_iff`), and so the texts that are accepted,
    and why the others are not, can be read off the grammar
    (`parse_grammar`). -/

namespace DiskKeys.Request

/-! ## Where a scan stops -/

section Scan

variable {α : Type} {p : α → Bool} {passed rest : List α}

theorem takeWhile_append_of_stop (hpassed : ∀ x ∈ passed, p x = true)
    (hrest : ∀ x ∈ rest.head?, p x = false) : (passed ++ rest).takeWhile p = passed := by
  rw [List.takeWhile_append_of_pos hpassed]
  cases rest with
  | nil => rw [List.takeWhile_nil, List.append_nil]
  | cons x rest => rw [List.takeWhile_cons, hrest x rfl, if_neg Bool.false_ne_true, List.append_nil]

theorem dropWhile_append_of_stop (hpassed : ∀ x ∈ passed, p x = true)
    (hrest : ∀ x ∈ rest.head?, p x = false) : (passed ++ rest).dropWhile p = rest := by
  rw [List.dropWhile_append_of_pos hpassed]
  cases rest with
  | nil => rfl
  | cons x rest => rw [List.dropWhile_cons, hrest x rfl, if_neg Bool.false_ne_true]

variable [DecidableEq α] {x : α}

theorem ne_of_passed (h : x ∉ passed) : ∀ y ∈ passed, decide (y ≠ x) = true := by
  intro y hy
  exact decide_eq_true (ne_of_mem_of_not_mem hy h)

theorem takeWhile_ne_append_cons (h : x ∉ passed) :
    (passed ++ x :: rest).takeWhile (· ≠ x) = passed :=
  takeWhile_append_of_stop (ne_of_passed h) (by simp)

theorem dropWhile_ne_append_cons (h : x ∉ passed) :
    (passed ++ x :: rest).dropWhile (· ≠ x) = x :: rest :=
  dropWhile_append_of_stop (ne_of_passed h) (by simp)

theorem dropWhile_ne_of_not_mem (h : x ∉ passed) : passed.dropWhile (· ≠ x) = [] :=
  List.dropWhile_eq_nil_iff.mpr (ne_of_passed h)

end Scan

/-! ## Fields -/

/-- A line is the word for a key, an equals sign and a value; blanks may
    stand around the word and around the value. -/
inductive HoldsField : List Char → Field → Prop
  | intro {word text value : List Char} {key : Key} (first : '=' ∉ word)
      (label : Text.Trims word key.label.toList) (core : Text.Trims text value) :
      HoldsField (word ++ '=' :: text) ⟨key, value⟩

theorem ofLabel?_eq_some_iff {word : List Char} {key : Key} :
    Key.ofLabel? word = some key ↔ word = key.label.toList := by
  constructor
  · intro h
    have hword := List.find?_some h
    exact beq_iff_eq.mp hword
  · rintro rfl
    cases key <;> rfl

theorem ofLine?_append_cons {word text : List Char} (h : '=' ∉ word) :
    Field.ofLine? (word ++ '=' :: text) =
      (Key.ofLabel? (Text.trim word)).map fun key => ⟨key, Text.trim text⟩ := by
  rw [Field.ofLine?, dropWhile_ne_append_cons h, takeWhile_ne_append_cons h]

theorem ofLine?_eq_some_iff {line : List Char} {f : Field} :
    Field.ofLine? line = some f ↔ HoldsField line f := by
  constructor
  · intro h
    by_cases hline : '=' ∈ line
    · obtain ⟨word, text, rfl, hword⟩ := List.eq_append_cons_of_mem hline
      rw [ofLine?_append_cons hword] at h
      obtain ⟨key, hkey, rfl⟩ := Option.map_eq_some_iff.mp h
      have hlabel := ofLabel?_eq_some_iff.mp hkey
      exact .intro hword (Text.trim_eq_iff.mp hlabel) (Text.trims_trim text)
    · rw [Field.ofLine?, dropWhile_ne_of_not_mem hline] at h
      cases h
  · rintro ⟨hword, hlabel, hcore⟩
    rw [ofLine?_append_cons hword, hlabel.trim_eq, hcore.trim_eq, ofLabel?_eq_some_iff.mpr rfl]
    rfl

/-- The fields that lines hold, in order; a line that holds none says
    nothing. -/
inductive Says : List (List Char) → List Field → Prop
  | nil : Says [] []
  | field {line : List Char} {lines : List (List Char)} {f : Field} {fields : List Field}
      (holds : HoldsField line f) (rest : Says lines fields) : Says (line :: lines) (f :: fields)
  | other {line : List Char} {lines : List (List Char)} {fields : List Field}
      (none : ∀ f, ¬HoldsField line f) (rest : Says lines fields) : Says (line :: lines) fields

theorem says_iff {lines : List (List Char)} {fields : List Field} :
    Says lines fields ↔ lines.filterMap Field.ofLine? = fields := by
  constructor
  · intro h
    induction h with
    | nil => rfl
    | field holds _ ih => rw [List.filterMap_cons_some (ofLine?_eq_some_iff.mpr holds), ih]
    | @other line _ _ none _ ih =>
        have hline : Field.ofLine? line = .none :=
          Option.eq_none_iff_forall_ne_some.mpr fun f hf => none f (ofLine?_eq_some_iff.mp hf)
        rw [List.filterMap_cons_none hline, ih]
  · rintro rfl
    induction lines with
    | nil => exact .nil
    | cons line lines ih =>
        cases hline : Field.ofLine? line with
        | none =>
            rw [List.filterMap_cons_none hline]
            refine .other (fun f hf => ?_) ih
            rw [ofLine?_eq_some_iff.mpr hf] at hline
            cases hline
        | some f =>
            rw [List.filterMap_cons_some hline]
            exact .field (ofLine?_eq_some_iff.mp hline) ih

theorem Says.unique {lines : List (List Char)} {fields fields' : List Field}
    (h : Says lines fields) (h' : Says lines fields') : fields = fields' :=
  (says_iff.mp h).symm.trans (says_iff.mp h')

/-! ## The section -/

/-- Lines stand between the first header of a section and the next line
    that starts with a bracket, if there is one. -/
def HasSection (lines inside : List (List Char)) : Prop :=
  ∃ before after, lines = before ++ sectionHeader.toList :: (inside ++ after) ∧
    sectionHeader.toList ∉ before ∧ (∀ line ∈ inside, line.head? ≠ some '[') ∧
    ∀ line ∈ after.head?, line.head? = some '['

theorem sectionLines?_append_cons {before rest : List (List Char)}
    (h : sectionHeader.toList ∉ before) :
    sectionLines? (before ++ sectionHeader.toList :: rest) =
      some (rest.takeWhile fun line => line.head? ≠ some '[') := by
  rw [sectionLines?, dropWhile_ne_append_cons h]

theorem sectionLines?_eq_none_iff {lines : List (List Char)} :
    sectionLines? lines = none ↔ sectionHeader.toList ∉ lines := by
  constructor
  · intro h hmem
    obtain ⟨before, rest, rfl, hbefore⟩ := List.eq_append_cons_of_mem hmem
    rw [sectionLines?_append_cons hbefore] at h
    cases h
  · intro h
    rw [sectionLines?, dropWhile_ne_of_not_mem h]

theorem sectionLines?_eq_some_iff {lines inside : List (List Char)} :
    sectionLines? lines = some inside ↔ HasSection lines inside := by
  constructor
  · intro h
    have hmem : sectionHeader.toList ∈ lines := by
      by_contra hmem
      rw [sectionLines?_eq_none_iff.mpr hmem] at h
      cases h
    obtain ⟨before, rest, rfl, hbefore⟩ := List.eq_append_cons_of_mem hmem
    rw [sectionLines?_append_cons hbefore] at h
    obtain rfl := Option.some.inj h
    refine ⟨before, rest.dropWhile fun line => line.head? ≠ some '[', ?_, hbefore, ?_, ?_⟩
    · rw [List.takeWhile_append_dropWhile]
    · intro line hline
      have hpassed := List.mem_takeWhile_imp hline
      exact of_decide_eq_true hpassed
    · intro line hline
      have hstop := List.head?_dropWhile_not (fun line : List Char => line.head? ≠ some '[') rest
      rw [Option.mem_def.mp hline] at hstop
      simpa using hstop
  · rintro ⟨before, after, rfl, hbefore, hinside, hafter⟩
    rw [sectionLines?_append_cons hbefore, takeWhile_append_of_stop]
    · simpa using hinside
    · simpa using hafter

theorem HasSection.unique {lines inside inside' : List (List Char)}
    (h : HasSection lines inside) (h' : HasSection lines inside') : inside = inside' :=
  Option.some.inj ((sectionLines?_eq_some_iff.mpr h).symm.trans (sectionLines?_eq_some_iff.mpr h'))

/-- The fields of a text are what the lines of its section say. -/
theorem fields?_eq_some_iff {text : String} {fields : List Field} :
    fields? text = some fields ↔ ∃ lines inside, Text.HasLines text.toList lines ∧
      HasSection lines inside ∧ Says inside fields := by
  rw [fields?, Option.map_eq_some_iff]
  constructor
  · rintro ⟨inside, hinside, hfields⟩
    exact ⟨_, inside, Text.trimmedLines_eq_iff.mp rfl, sectionLines?_eq_some_iff.mp hinside,
      says_iff.mpr hfields⟩
  · rintro ⟨lines, inside, hlines, hinside, hfields⟩
    rw [Text.trimmedLines_eq_iff.mpr hlines]
    exact ⟨inside, sectionLines?_eq_some_iff.mpr hinside, says_iff.mp hfields⟩

/-! ## What the fields come to -/

/-- The value of the last field with a key, empty if there is no such
    field. -/
inductive LastValue (key : Key) : List Field → List Char → Prop
  | missing {fields : List Field} (none : ∀ f ∈ fields, f.key ≠ key) : LastValue key fields []
  | last {before after : List Field} {value : List Char} (none : ∀ f ∈ after, f.key ≠ key) :
      LastValue key (before ++ ⟨key, value⟩ :: after) value

theorem valuesOf_append (key : Key) (front back : List Field) :
    valuesOf key (front ++ back) = valuesOf key front ++ valuesOf key back := by
  rw [valuesOf, List.filter_append, List.map_append]
  rfl

theorem length_valuesOf (key : Key) (fields : List Field) :
    (valuesOf key fields).length = fields.countP (·.key = key) := by
  rw [valuesOf, List.length_map, List.countP_eq_length_filter]

theorem mem_valuesOf {key : Key} {fields : List Field} {value : List Char}
    (h : value ∈ valuesOf key fields) : ⟨key, value⟩ ∈ fields := by
  obtain ⟨f, hf, rfl⟩ := List.mem_map.mp h
  obtain ⟨hmem, hkey⟩ := List.mem_filter.mp hf
  obtain rfl := of_decide_eq_true hkey
  exact hmem

theorem LastValue.append_other {key : Key} {fields : List Field} {value : List Char} {f : Field}
    (h : LastValue key fields value) (hf : f.key ≠ key) : LastValue key (fields ++ [f]) value := by
  cases h with
  | missing none =>
      refine .missing fun g hg => ?_
      rcases List.mem_append.mp hg with hg | hg
      · exact none g hg
      · rwa [List.mem_singleton.mp hg]
  | @last before after value none =>
      rw [List.append_assoc, List.cons_append]
      refine .last fun g hg => ?_
      rcases List.mem_append.mp hg with hg | hg
      · exact none g hg
      · rwa [List.mem_singleton.mp hg]

theorem lastValue_getLastD (key : Key) (fields : List Field) :
    LastValue key fields ((valuesOf key fields).getLastD []) := by
  induction fields using List.reverseRecOn with
  | nil => exact .missing fun f hf => absurd hf List.not_mem_nil
  | append_singleton fields f ih =>
      rw [valuesOf_append]
      by_cases hkey : f.key = key
      · obtain rfl := hkey
        have hlast : valuesOf f.key [f] = [f.value] := by simp [valuesOf]
        rw [hlast, List.getLastD_concat]
        exact .last fun g hg => absurd hg List.not_mem_nil
      · have hnone : valuesOf key [f] = [] := by simp [valuesOf, hkey]
        rw [hnone, List.append_nil]
        exact ih.append_other hkey

/-- A request says what the fields of its section say. -/
structure Reads (id marker : String) (fields : List Field) (r : Request) : Prop where
  id_eq : r.id = id
  socket : ∃ socket, ⟨.socket, socket⟩ ∈ fields ∧ r.socket = .ofString (.ofList socket)
  message : LastValue .message fields r.message.toList
  isBoot : r.isBoot = true ↔ marker.toList <:+: r.message.toList

/-! ## What is accepted -/

section Accepted

variable {id marker : String} {fields : List Field}

theorem ofFields_eq_missingSocket_iff :
    ofFields id marker fields = .error .missingSocket ↔ valuesOf .socket fields = [] := by
  unfold ofFields
  rcases valuesOf .socket fields with _ | ⟨socket, _ | ⟨another, rest⟩⟩ <;> simp

theorem ofFields_eq_duplicateSocket_iff :
    ofFields id marker fields = .error .duplicateSocket ↔
      2 ≤ (valuesOf .socket fields).length := by
  unfold ofFields
  rcases valuesOf .socket fields with _ | ⟨socket, _ | ⟨another, rest⟩⟩ <;> simp

theorem ofFields_ne_missingSection : ofFields id marker fields ≠ .error .missingSection := by
  unfold ofFields
  rcases valuesOf .socket fields with _ | ⟨socket, _ | ⟨another, rest⟩⟩ <;> simp

theorem reads_assemble {socket : List Char} (h : valuesOf .socket fields = [socket]) :
    Reads id marker fields (assemble id marker fields socket) where
  id_eq := rfl
  socket := ⟨socket, mem_valuesOf (by rw [h]; exact List.mem_singleton_self socket), rfl⟩
  message := by
    show LastValue .message fields (String.ofList _).toList
    rw [String.toList_ofList]
    exact lastValue_getLastD .message fields
  isBoot := by
    show Text.occurs marker.toList _ = true ↔ marker.toList <:+: (String.ofList _).toList
    rw [Text.occurs_iff, String.toList_ofList]

end Accepted

/-- The parser accepts the texts with a section that names one socket.
    Otherwise it tells which of the two is missing, or that there are more
    sockets; nothing else in a text ever has it rejected. -/
theorem parse_grammar (id contents marker : String) :
    ∃ lines, Text.HasLines contents.toList lines ∧
      (parse id contents marker = .error .missingSection ↔ sectionHeader.toList ∉ lines) ∧
      (sectionHeader.toList ∈ lines →
        ∃ inside fields, HasSection lines inside ∧ Says inside fields ∧
          (parse id contents marker = .error .duplicateSocket ↔
            2 ≤ fields.countP (·.key = .socket)) ∧
          (parse id contents marker = .error .missingSocket ↔
            fields.countP (·.key = .socket) = 0) ∧
          (fields.countP (·.key = .socket) = 1 →
            ∃ r, parse id contents marker = .ok r ∧ Reads id marker fields r)) := by
  refine ⟨_, Text.trimmedLines_eq_iff.mp rfl, ?_, ?_⟩
  · rw [← sectionLines?_eq_none_iff, parse]
    cases sectionLines? (Text.trimmedLines contents.toList) with
    | none => simp
    | some inside => simp [ofFields_ne_missingSection]
  · intro hheader
    obtain ⟨inside, hinside⟩ := Option.ne_none_iff_exists'.mp
      fun hnone => sectionLines?_eq_none_iff.mp hnone hheader
    have hparse : parse id contents marker =
        ofFields id marker (inside.filterMap Field.ofLine?) := by
      rw [parse, hinside]
    refine ⟨inside, _, sectionLines?_eq_some_iff.mp hinside, says_iff.mpr rfl, ?_, ?_, ?_⟩
    · rw [hparse, ofFields_eq_duplicateSocket_iff, length_valuesOf]
    · rw [hparse, ofFields_eq_missingSocket_iff, ← List.length_eq_zero_iff, length_valuesOf]
    · intro hone
      rw [← length_valuesOf] at hone
      obtain ⟨socket, hsocket⟩ := List.length_eq_one_iff.mp hone
      refine ⟨_, ?_, reads_assemble hsocket⟩
      rw [hparse, ofFields_eq_ok]
      exact ⟨socket, hsocket, rfl⟩

/-- What stands outside the section, between its fields or in the fields
    that may be missing does not matter. -/
example :
    let contents := "Socket=/old\n [Ask]\r\nSocket = /run/a=b \nMessage=one\nColour\nPID=?\n" ++
      "Message=two\n[Ask]\nSocket=/new"
    (parse "ask.1" contents "wo").toOption.map (fun r => (r.message, r.socket, r.pid, r.isBoot)) =
      some ("two", .ofString "/run/a=b", none, true) := by
  cbv

end DiskKeys.Request
