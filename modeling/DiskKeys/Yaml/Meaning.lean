import DiskKeys.Decimal.Number
import DiskKeys.Text.Decimal
import DiskKeys.Yaml.Token.Scalar

/-! # What scalars mean

    A plain scalar may be null, a truth value, a number or text, whichever
    comes first in this order; a tag can demand one of them. -/

namespace DiskKeys.Yaml

/-- A scalar of a document. -/
structure Scalar where
  /-- The full tag, as octets. -/
  tag : Option (List Char)
  style : ScalarStyle
  text : List Char
  deriving DecidableEq, Repr

/-- What is found where something may stand. -/
inductive Meaning where
  | null
  | bool (b : Bool)
  /-- A whole number; a wide one does not fit in sixty-four bits. -/
  | integer (n : Int) (wide : Bool)
  | number (n : Decimal.Number)
  | text (text : List Char)
  | sequence
  | mapping
  deriving DecidableEq, Repr

/-- The truth value that a text spells. -/
def bool? (text : List Char) : Option Bool :=
  if ["true", "True", "TRUE"].contains (String.ofList text) then some true
  else if ["false", "False", "FALSE"].contains (String.ofList text) then some false
  else none

/-- Whether a text spells null. -/
def isNull (text : List Char) : Bool :=
  ["null", "Null", "NULL", "~"].contains (String.ofList text)

/-! ## Whole numbers -/

/-- Whether a text is a zero with more digits behind it, which is not read
    as a number. -/
def hasLeadingZero (text : List Char) : Bool :=
  let digits := match text with
    | '-' :: rest => rest
    | '+' :: rest => rest
    | _ => text
  1 < digits.length && digits.head? == some '0' && digits.all Char.isDigit

/-- The value of digits behind the mark of their base. -/
def basedValue? : List Char → Option Nat
  | '0' :: 'x' :: digits => Text.digitsValue? hexDigit? 16 digits
  | '0' :: 'o' :: digits => Text.digitsValue? (digitBelow 8) 8 digits
  | '0' :: 'b' :: digits => Text.digitsValue? (digitBelow 2) 2 digits
  | _ => none
where
  /-- The value of a digit that must be below a base. -/
  digitBelow (base : Nat) (c : Char) : Option Nat :=
    (Text.digit? c).filter (· < base)

/-- The value of digits, with or without the mark of a base. -/
def wholeValue? (text digits : List Char) : Option Nat :=
  match basedValue? digits with
  | some n => some n
  | none => if hasLeadingZero text then none else Text.digitsValue? Text.digit? 10 digits

/-- The number up to `bound` that a text spells. -/
def unsigned? (bound : Nat) (text : List Char) : Option Nat :=
  (wholeValue? text (Text.dropPlus text)).filter (· ≤ bound)

/-- The number down to `-bound` that a text with a minus sign spells. -/
def negative? (bound : Nat) : List Char → Option Int
  | '-' :: digits =>
      ((wholeValue? ('-' :: digits) digits).filter (· ≤ bound)).map fun n => -(n : Int)
  | _ => none

/-- The whole number that a text spells. -/
def integer? (text : List Char) : Option Meaning :=
  let unsigned bound := (unsigned? bound text).map fun (n : Nat) => (n : Int)
  (unsigned (Nat.pow 2 64 - 1)).map (.integer · false)
    <|> (negative? (Nat.pow 2 63) text).map (.integer · false)
    <|> (unsigned (Nat.pow 2 128 - 1)).map (.integer · true)
    <|> (negative? (Nat.pow 2 127) text).map (.integer · true)

/-! ## Other numbers -/

/-- The number that a text spells in some other way. -/
def number? (text : List Char) : Option Decimal.Number :=
  let unsigned := Text.dropPlus text
  let spelled := String.ofList text
  if unsigned != text && (unsigned.head? == some '+' || unsigned.head? == some '-') then none
  else if [".inf", ".Inf", ".INF"].contains (String.ofList unsigned) then some (.infinite false)
  else if ["-.inf", "-.Inf", "-.INF"].contains spelled then some (.infinite true)
  else if [".nan", ".NaN", ".NAN"].contains spelled then some .undefined
  else match unsigned with
    | '-' :: digits => (Decimal.Number.magnitude? digits).map (.finite true)
    | digits => (Decimal.Number.magnitude? digits).map (.finite false)

/-! ## Scalars -/

/-- What a plain text means. -/
def Meaning.ofPlain (text : List Char) : Meaning :=
  if text.isEmpty || isNull text then .null
  else match bool? text with
    | some b => .bool b
    | none =>
        match integer? text with
        | some meaning => meaning
        | none =>
            match (if hasLeadingZero text then none else number? text) with
            | some n => .number n
            | none => .text text

/-- The tags that demand a meaning. -/
inductive CoreTag where
  | null
  | bool
  | int
  | float
  deriving DecidableEq, Repr

/-- The full tag, as octets. -/
def CoreTag.uri (tag : CoreTag) : List Char :=
  ("tag:yaml.org,2002:" ++ match tag with
    | null => "null"
    | bool => "bool"
    | int => "int"
    | float => "float").toList

/-- The words for what a tag demands. -/
def CoreTag.expected : CoreTag → String
  | null => "null"
  | bool => "a boolean"
  | int => "an integer"
  | float => "a float"

/-- The tag that is spelled in full. -/
def CoreTag.ofUri? (uri : List Char) : Option CoreTag :=
  [CoreTag.bool, .int, .float, .null].find? (·.uri == uri)

/-- What a text means that has a tag, if it is what the tag demands. -/
def CoreTag.meaning? (tag : CoreTag) (text : List Char) : Option Meaning :=
  match tag with
  | bool => (bool? text).map .bool
  | int => integer? text
  | float => (number? text).map .number
  | null => if isNull text then some .null else none

namespace Scalar

/-- What a scalar means, or the tag that its text does not fit. -/
def meaning (s : Scalar) : Except CoreTag Meaning :=
  match s.tag with
  | none => .ok untagged
  | some uri =>
      match CoreTag.ofUri? uri with
      | some tag =>
          match tag.meaning? s.text with
          | some m => .ok m
          | none => .error tag
      | none => .ok (if uri.head? == some '!' then untagged else .text s.text)
where
  /-- What the scalar means by its text alone. -/
  untagged : Meaning :=
    if s.style = .plain then .ofPlain s.text else .text s.text

/-- Whether a scalar is read as a value of a kind: a plain one always, and
    a literal one with the tag of the kind. -/
def isFor (s : Scalar) (tag : CoreTag) : Bool :=
  match s.style with
  | .plain => true
  | .literal => s.tag == some tag.uri
  | _ => false

end Scalar

end DiskKeys.Yaml
