/-! # Decimal numbers in text

    A number is an optional plus sign and one or more decimal digits; it is
    read exactly, and refused when it exceeds the given bound. -/

namespace DiskKeys.Text

/-- The value of a decimal digit. -/
def digit? (c : Char) : Option Nat :=
  if '0' ≤ c ∧ c ≤ '9' then some (c.toNat - '0'.toNat) else none

/-- The value of one or more digits to a base; a digit must have a value
    below it. -/
def digitsValue? (digit? : Char → Option Nat) (base : Nat) (text : List Char) : Option Nat :=
  if text.isEmpty then none
  else text.foldl (fun acc c => do return base * (← acc) + (← digit? c)) (some 0)

/-- Text without one plus sign at its start. -/
def dropPlus : List Char → List Char
  | '+' :: rest => rest
  | text => text

/-- The decimal number that a text spells, if it is at most `bound`. -/
def decimal? (bound : Nat) (text : List Char) : Option Nat :=
  (digitsValue? digit? 10 (dropPlus text)).filter (· ≤ bound)

end DiskKeys.Text
