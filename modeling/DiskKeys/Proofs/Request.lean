import DiskKeys.Request
import DiskKeys.Proofs.Attempt

/-! # What a request says

    A text is accepted as a request exactly when it has the section and
    the section names one socket; all that the request says is read off
    its fields (`parse_eq_ok`).  It wants the boot key exactly when the
    marker stands in its message (`isBoot_iff`). -/

namespace DiskKeys.Request

/-- The fields of a text, if it has the section. -/
def fields? (text : String) : Option (List Field) :=
  (sectionLines? (Text.trimmedLines text.toList)).map (List.filterMap Field.ofLine?)

/-- The request that fields make up, with the value of the only socket. -/
def assemble (id marker : String) (fields : List Field) (socket : List Char) : Request :=
  let message := (valuesOf .message fields).getLastD []
  { id
    message := .ofList message
    socket := .ofString (.ofList socket)
    notAfter := deadline? (valuesOf .notAfter fields)
    pid := pid? (valuesOf .pid fields)
    isBoot := Text.occurs marker.toList message }

theorem ofFields_eq_ok {id marker : String} {fields : List Field} {r : Request} :
    ofFields id marker fields = .ok r ↔
      ∃ socket, valuesOf .socket fields = [socket] ∧ r = assemble id marker fields socket := by
  unfold ofFields
  rcases valuesOf .socket fields with _ | ⟨socket, _ | ⟨another, rest⟩⟩
  · simp
  · simp [assemble, eq_comm]
  · simp

/-- A text is accepted exactly when it has the section and one socket. -/
theorem parse_eq_ok {id text marker : String} {r : Request} :
    parse id text marker = .ok r ↔
      ∃ fields socket, fields? text = some fields ∧ valuesOf .socket fields = [socket] ∧
        r = assemble id marker fields socket := by
  unfold parse fields?
  cases sectionLines? (Text.trimmedLines text.toList) with
  | none => simp
  | some lines => simp [ofFields_eq_ok]

/-- The boot key is wanted exactly when the marker stands in the message. -/
theorem isBoot_iff {id text marker : String} {r : Request}
    (h : parse id text marker = .ok r) :
    r.isBoot = true ↔ marker.toList <:+: r.message.toList := by
  obtain ⟨fields, socket, -, -, rfl⟩ := parse_eq_ok.mp h
  show Text.occurs marker.toList _ = true ↔ marker.toList <:+: (String.ofList _).toList
  rw [Text.occurs_iff, String.toList_ofList]

/-- A request is known by the name that it was read under. -/
theorem id_of_parse {id text marker : String} {r : Request} (h : parse id text marker = .ok r) :
    r.id = id := by
  obtain ⟨fields, socket, -, -, rfl⟩ := parse_eq_ok.mp h
  rfl

/-- A request that has expired has a deadline that has come. -/
theorem isExpired_eq_true_iff {r : Request} {now : Nat} :
    r.isExpired now = true ↔ ∃ deadline, r.notAfter = some deadline ∧ deadline ≤ now := by
  unfold isExpired
  cases r.notAfter with
  | none => simp
  | some deadline => simp

/-- A request that has not expired has no deadline or a later one. -/
theorem isExpired_eq_false_iff {r : Request} {now : Nat} :
    r.isExpired now = false ↔ ∀ deadline, r.notAfter = some deadline → now < deadline := by
  unfold isExpired
  cases r.notAfter with
  | none => simp
  | some deadline => simp

end DiskKeys.Request
