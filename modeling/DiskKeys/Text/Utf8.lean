import DiskKeys.Bytes.Cursor

/-! # UTF-8

    Bytes are text when they are well-formed UTF-8.  Names that are not can
    still be shown: each longest start of a character that breaks off is
    shown as one replacement character. -/

namespace DiskKeys.Text.Utf8

/-- The bytes of a text. -/
def encode (text : String) : Bytes :=
  text.toByteArray.toList

/-- The text whose bytes are given, if they are well-formed. -/
def decode? (bytes : Bytes) : Option String :=
  String.fromUTF8? bytes.toByteArray

/-- The second bytes that may follow a first byte, and how many bytes make
    up the character; `none` when no character starts so. -/
def lead? (b : UInt8) : Option (UInt8 × UInt8 × Nat) :=
  if b < 0xc2 then none
  else if b < 0xe0 then some (0x80, 0xbf, 2)
  else if b = 0xe0 then some (0xa0, 0xbf, 3)
  else if b = 0xed then some (0x80, 0x9f, 3)
  else if b < 0xf0 then some (0x80, 0xbf, 3)
  else if b = 0xf0 then some (0x90, 0xbf, 4)
  else if b < 0xf4 then some (0x80, 0xbf, 4)
  else if b = 0xf4 then some (0x80, 0x8f, 4)
  else none

/-- Whether a byte continues a character. -/
def isContinuation (b : UInt8) : Bool :=
  0x80 ≤ b && b < 0xc0

/-- How many bytes after the first belong to the character or broken start
    of one, and whether it is whole. -/
def tail (b : UInt8) (rest : Bytes) : Nat × Bool :=
  if b < 0x80 then (0, true)
  else match lead? b, rest with
    | none, _ => (0, false)
    | some (low, high, size), second :: more =>
        if low ≤ second && second ≤ high then
          let n := ((more.take (size - 2)).takeWhile isContinuation).length
          (n + 1, n + 2 == size)
        else (0, false)
    | some _, [] => (0, false)

/-- The character of a first byte and its continuations. -/
def assemble (b : UInt8) (continuations : Bytes) : Char :=
  let first := match continuations.length with
    | 0 => b.toNat
    | 1 => b.toNat % 0x20
    | 2 => b.toNat % 0x10
    | _ => b.toNat % 0x08
  .ofNat (continuations.foldl (fun acc c => 0x40 * acc + c.toNat % 0x40) first)

/-- What is shown of bytes, when characters that are whole and the bytes of
    broken ones are shown each in their own way. -/
def showChars (whole : Char → List Char) (broken : Bytes → List Char) : Bytes → List Char
  | [] => []
  | b :: rest =>
      let (n, isWhole) := tail b rest
      (if isWhole then whole (assemble b (rest.take n)) else broken (b :: rest.take n))
        ++ showChars whole broken (rest.drop n)
termination_by bytes => bytes.length
decreasing_by
  simp only [List.length_drop, List.length_cons]
  omega

/-- The characters of bytes, with a replacement character for each broken
    one. -/
def lossyChars (bytes : Bytes) : List Char :=
  showChars (fun c => [c]) (fun _ => ['\uFFFD']) bytes

/-- Bytes as text, with replacement characters where they are not. -/
def lossy (bytes : Bytes) : String :=
  match decode? bytes with
  | some text => text
  | none => .ofList (lossyChars bytes)

end DiskKeys.Text.Utf8
