/-! # Binary fractions

    The numbers with fifty-three binary digits that double precision
    offers, and the one that is nearest to a fraction.  All of it is exact
    arithmetic on natural numbers. -/

namespace DiskKeys.Decimal

/-- The number `digits * 2 ^ exponent`. -/
structure Binary where
  digits : Nat
  exponent : Int
  deriving DecidableEq, Repr

/-- A fraction of natural numbers. -/
structure Ratio where
  num : Nat
  den : Nat

namespace Ratio

/-- The fraction times a power of a base. -/
def scale (r : Ratio) (base : Nat) (exponent : Int) : Ratio :=
  if 0 ≤ exponent then ⟨r.num * Nat.pow base exponent.toNat, r.den⟩
  else ⟨r.num, r.den * Nat.pow base (-exponent).toNat⟩

/-- The whole part. -/
def floor (r : Ratio) : Nat :=
  r.num / r.den

/-- The nearest whole number; a half goes to the even neighbour. -/
def roundEven (r : Ratio) : Nat :=
  let q := r.num / r.den
  let twice := 2 * (r.num % r.den)
  if twice < r.den || (twice == r.den && q % 2 == 0) then q else q + 1

/-- Whether a fraction is smaller than another. -/
def less (r s : Ratio) : Bool :=
  r.num * s.den < s.num * r.den

end Ratio

namespace Binary

/-- How many binary digits a number has. -/
def width : Nat := 53

/-- The smallest exponent. -/
def minExponent : Int := -1074

/-- The largest exponent. -/
def maxExponent : Int := 971

/-- The value as a fraction. -/
def toRatio (b : Binary) : Ratio :=
  Ratio.scale ⟨b.digits, 1⟩ 2 b.exponent

/-- The exponent at which a fraction has as many digits as fit. -/
def exponentFor (r : Ratio) : Int :=
  let e : Int := r.num.log2 - r.den.log2 - (width - 1 : Nat)
  let e := if (r.scale 2 (-e)).floor < Nat.pow 2 (width - 1) then e - 1 else e
  max e minExponent

/-- The binary fraction nearest to a fraction, unless that is too large. -/
def ofRatio? (r : Ratio) : Option Binary :=
  if r.num = 0 then some ⟨0, minExponent⟩
  else
    let e := exponentFor r
    let n := (r.scale 2 (-e)).roundEven
    let b : Binary := if n = Nat.pow 2 width then ⟨Nat.pow 2 (width - 1), e + 1⟩ else ⟨n, e⟩
    if maxExponent < b.exponent then none else some b

end Binary

end DiskKeys.Decimal
