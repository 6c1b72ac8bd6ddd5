import DiskKeys.Decimal.Shortest

/-! # Decimal numbers in scientific notation

    Digits with an optional point among them and an optional power of ten
    behind them are a number; it is rounded to double precision. -/

namespace DiskKeys.Decimal

/-- A number in double precision. -/
inductive Number where
  | finite (negative : Bool) (magnitude : Binary)
  | infinite (negative : Bool)
  | undefined
  deriving DecidableEq, Repr

namespace Number

/-- The number as text, always with a point if it is finite. -/
def toText : Number → String
  | finite negative b =>
      let text := String.ofList b.shortest.toText
      if negative then "-" ++ text else text
  | infinite negative => if negative then "-inf" else "inf"
  | undefined => "NaN"

/-- The number that digits spell. -/
def ofDigits (digits : List Char) : Nat :=
  digits.foldl (fun n c => 10 * n + (c.toNat - 48)) 0

/-- The power of ten that comes behind the digits: `e`, an optional sign,
    and one or more digits, or nothing at all. -/
def power? : List Char → Option Int
  | [] => some 0
  | c :: rest =>
      if c != 'e' && c != 'E' then none
      else
        let negative := rest.head? == some '-'
        let digits := if negative || rest.head? == some '+' then rest.drop 1 else rest
        if digits.isEmpty || !digits.all Char.isDigit then none
        else if negative then some (-(ofDigits digits : Int))
        else some (ofDigits digits)

/-- A power of ten beyond which every number is zero or too large. -/
def maxPower : Int := 400

/-- The fraction `digits * 10 ^ power` in double precision, unless it is
    too large. -/
def round? (digits : Nat) (power : Int) : Option Binary :=
  let size : Int := (Digits.digitChars digits).length + power
  if digits = 0 ∨ size < -maxPower then some ⟨0, Binary.minExponent⟩
  else if maxPower < size then none
  else Binary.ofRatio? (Ratio.scale ⟨digits, 1⟩ 10 power)

/-- The number that a text without sign spells, if it is one and not too
    large. -/
def magnitude? (text : List Char) : Option Binary :=
  let whole := text.takeWhile Char.isDigit
  let rest := text.dropWhile Char.isDigit
  let (fraction, rest) :=
    if rest.head? == some '.' then
      ((rest.drop 1).takeWhile Char.isDigit, (rest.drop 1).dropWhile Char.isDigit)
    else ([], rest)
  if whole.isEmpty && fraction.isEmpty then none
  else do
    let power ← power? rest
    round? (ofDigits (whole ++ fraction)) (power - fraction.length)

end Number

end DiskKeys.Decimal
