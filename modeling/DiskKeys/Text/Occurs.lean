/-! # Texts within texts

    Whether one list stands as a run inside another. -/

namespace DiskKeys.Text

/-- Whether `part` stands somewhere inside a list. -/
def occurs {α : Type} [BEq α] (part : List α) : List α → Bool
  | [] => part.isEmpty
  | a :: rest => part.isPrefixOf (a :: rest) || occurs part rest

theorem occurs_iff {α : Type} [BEq α] [LawfulBEq α] (part whole : List α) :
    occurs part whole = true ↔ part <:+: whole := by
  induction whole with
  | nil => simp [occurs, List.isEmpty_iff]
  | cons a rest ih =>
      rw [occurs, Bool.or_eq_true, ih, List.isPrefixOf_iff_prefix, List.infix_cons_iff]

end DiskKeys.Text
