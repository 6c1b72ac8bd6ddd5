import DiskKeys.Text.Printable

/-! # Quoted text

    Text between double quotes in which everything can be told apart: the
    quote and the backslash are preceded by a backslash, a few controls
    have letters of their own, and every other hidden character is given
    by its number. -/

namespace DiskKeys.Text

/-- The hexadecimal digits of a number, without leading zeros. -/
def hexDigits (n : Nat) : List Char :=
  Nat.toDigits 16 n

/-- How one character stands between the quotes. -/
def escape (c : Char) : List Char :=
  match c with
  | '\x00' => ['\\', '0']
  | '\t' => ['\\', 't']
  | '\r' => ['\\', 'r']
  | '\n' => ['\\', 'n']
  | '"' => ['\\', '"']
  | '\\' => ['\\', '\\']
  | c =>
      if isShown c then [c]
      else ['\\', 'u', '\x7b'] ++ hexDigits c.toNat ++ ['\x7d']

/-- The text between quotes. -/
def quoted (text : String) : String :=
  .ofList ('"' :: text.toList.flatMap escape ++ ['"'])

/-- A record as text: its name, and its fields with what they hold. -/
def record (name : String) (fields : List (String × String)) : String :=
  name ++ " \x7b " ++ ", ".intercalate (fields.map fun (field, value) => s!"{field}: {value}")
    ++ " \x7d"

/-- A value that may be missing, as text. -/
def optional {α : Type} (display : α → String) : Option α → String
  | some x => s!"Some({display x})"
  | none => "None"

end DiskKeys.Text
