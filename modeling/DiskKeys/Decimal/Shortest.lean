import DiskKeys.Decimal.Binary

/-! # The shortest decimal text

    A binary fraction is written with the fewest decimal digits that read
    back as the same fraction, and with the nearest such digits.  Of the
    decimal numbers with a given number of digits only the two neighbours
    of the fraction need to be tried: if any lies among the numbers that
    read back, one of the two does. -/

namespace DiskKeys.Decimal

/-- A decimal number, `digits * 10 ^ exponent`. -/
structure Digits where
  digits : Nat
  exponent : Int
  deriving DecidableEq, Repr

namespace Digits

/-- The value as a fraction. -/
def toRatio (d : Digits) : Ratio :=
  Ratio.scale ⟨d.digits, 1⟩ 10 d.exponent

/-- The digits of a number in text. -/
def digitChars (n : Nat) : List Char :=
  Nat.toDigits 10 n

/-- The number written out, with at least one digit on each side of the
    point. -/
def toText (d : Digits) : List Char :=
  if 0 ≤ d.exponent then digitChars (d.digits * Nat.pow 10 d.exponent.toNat) ++ ['.', '0']
  else
    let places := (-d.exponent).toNat
    let text := digitChars d.digits
    let text := List.replicate (places + 1 - text.length) '0' ++ text
    let (whole, fraction) := text.splitAt (text.length - places)
    let fraction := (fraction.reverse.dropWhile (· == '0')).reverse
    whole ++ '.' :: if fraction.isEmpty then ['0'] else fraction

end Digits

namespace Binary

/-- Whether a decimal number reads back as a binary fraction. -/
def readsBack (b : Binary) (d : Digits) : Bool :=
  Binary.ofRatio? d.toRatio == some b

/-- The power of ten that starts the decimal text of a fraction. -/
def magnitude (r : Ratio) : Int :=
  let guess : Int := (Digits.digitChars r.num).length - (Digits.digitChars r.den).length
  if r.less (Ratio.scale ⟨1, 1⟩ 10 guess) then guess - 1 else guess

/-- The decimal number with `count` digits that reads back as a binary
    fraction and is nearest to it; a tie goes up. -/
def withDigits? (b : Binary) (count : Nat) : Option Digits :=
  let r := b.toRatio
  let e := magnitude r - count + 1
  let scaled := r.scale 10 (-e)
  let low : Digits := ⟨scaled.floor, e⟩
  let high : Digits := ⟨scaled.floor + 1, e⟩
  let nearLow := 2 * (scaled.num % scaled.den) < scaled.den
  let (first, second) := if nearLow then (low, high) else (high, low)
  if b.readsBack first then some first
  else if b.readsBack second then some second
  else none

/-- The most digits that are ever needed. -/
def maxDigits : Nat := 17

/-- The shortest decimal number that reads back. -/
def shortest (b : Binary) : Digits :=
  if b.digits = 0 then ⟨0, 0⟩
  else ((List.range maxDigits).findSome? fun n => b.withDigits? (n + 1)).getD
    ⟨b.toRatio.floor, 0⟩

end Binary

end DiskKeys.Decimal
