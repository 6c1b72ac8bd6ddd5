import DiskKeys.Yaml.Fault

/-! # The text that is being read

    A source is the part of a text that has not been read, with the place
    where it starts.  What comes next is an optional character, and none at
    the end of the text, which counts as the end of a line.

    A text is taken in pieces of a fixed size, and a piece with a character
    that no text may hold is not taken at all.  So the reading of a text
    breaks off where it first looks into such a piece; whatever looks ahead
    says beforehand how far it is going to look. -/

namespace DiskKeys.Yaml

/-- Whether a text may hold a character. -/
def isPrintable (c : Char) : Bool :=
  let n := c.toNat
  n == 0x09 || n == 0x0a || n == 0x0d || (0x20 ≤ n && n ≤ 0x7e) || n == 0x85
    || (0xa0 ≤ n && n ≤ 0xfffd) || 0x10000 ≤ n

/-- Whether a character ends a line. -/
def isBreak (c : Char) : Bool :=
  c == '\n' || c == '\r' || c == '\x85' || c == '\u2028' || c == '\u2029'

/-- Whether a character is a space or a tab. -/
def isBlank (c : Char) : Bool :=
  c == ' ' || c == '\t'

/-- Whether a character may stand in a name. -/
def isNameChar (c : Char) : Bool :=
  c.isAlphanum || c == '-' || c == '_'

/-- Whether a line ends here. -/
def endsLine : Option Char → Bool
  | some c => isBreak c
  | none => true

/-- Whether a word ends here. -/
def endsWord : Option Char → Bool
  | some c => isBlank c || isBreak c
  | none => true

/-- The bytes that characters take. -/
def byteSize (text : List Char) : Nat :=
  text.foldl (fun n c => n + c.utf8Size) 0

/-- The size of the pieces in which a text is taken. -/
def pieceSize : Nat := 16384

/-- A text while it is cut into pieces. -/
structure Pieces where
  /-- The full pieces, last first. -/
  full : List (List Char)
  /-- The last piece, last character first. -/
  piece : List Char
  /-- How many bytes still fit into it. -/
  room : Nat

namespace Pieces

/-- The pieces of an empty text. -/
def empty : Pieces := ⟨[], [], pieceSize⟩

/-- Adds a character, which is never cut. -/
def push (p : Pieces) (c : Char) : Pieces :=
  if c.utf8Size ≤ p.room then ⟨p.full, c :: p.piece, p.room - c.utf8Size⟩
  else ⟨p.piece.reverse :: p.full, [c], pieceSize - c.utf8Size⟩

/-- The pieces in order. -/
def toList (p : Pieces) : List (List Char) :=
  (p.piece.reverse :: p.full).reverse

/-- The pieces of a text. -/
def ofText (text : List Char) : Pieces :=
  text.foldl push empty

theorem flatten_toList_push (p : Pieces) (c : Char) :
    (p.push c).toList.flatten = p.toList.flatten ++ [c] := by
  unfold push toList
  split <;> simp

theorem flatten_toList_foldl_push (text : List Char) (p : Pieces) :
    (text.foldl push p).toList.flatten = p.toList.flatten ++ text := by
  induction text generalizing p with
  | nil => simp
  | cons c rest ih => rw [List.foldl_cons, ih, flatten_toList_push, List.append_assoc]; rfl

/-- Cutting a text into pieces loses nothing. -/
theorem flatten_toList_ofText (text : List Char) : (ofText text).toList.flatten = text :=
  flatten_toList_foldl_push text empty

end Pieces

/-- The part of a text that has not been read, as far as it can be. -/
structure Source where
  rest : List Char
  mark : Mark
  /-- How many characters there were at first.  No loop over the rest goes
      round more often. -/
  size : Nat
  /-- What is found behind the rest, if that is not the end of the text. -/
  broken : Option Fault

namespace Source

/-- A text, up to the piece with the first character that it may not hold.
    That character is known by the bytes that come before it. -/
def ofText (text : String) : Source :=
  let text := text.toList
  if text.all isPrintable then ⟨text, .start, text.length, none⟩
  else
    let whole := ((Pieces.ofText text).toList.takeWhile (·.all isPrintable)).flatten
    let before := byteSize (text.takeWhile isPrintable)
    ⟨whole, .start, whole.length, some ⟨.controlCharacter, .position before, none⟩⟩

/-- Makes sure that looking at the next `n` characters does not reach into a
    piece that cannot be taken; the end of the text may always be seen. -/
def reach (s : Source) (n : Nat) : Except Fault Unit :=
  match s.broken with
  | some fault => if (s.rest.drop (n - 1)).isEmpty then .error fault else .ok ()
  | none => .ok ()

/-- The character `n` places ahead. -/
def ahead (s : Source) (n : Nat) : Option Char :=
  s.rest[n]?

/-- The next character. -/
def next (s : Source) : Option Char :=
  s.rest.head?

/-- Whether the next character is the given one. -/
def nextIs (s : Source) (c : Char) : Bool :=
  s.next == some c

/-- Passes over `n` characters of a line. -/
def skip (s : Source) (n : Nat) : Source :=
  { s with rest := s.rest.drop n, mark := s.mark.forward n (byteSize (s.rest.take n)) }

/-- Reads characters of a line as long as they are of a kind, and looks at
    the one behind them. -/
def span (s : Source) (p : Char → Bool) : Except Fault (List Char × Source) := do
  let run := s.rest.takeWhile p
  let after := s.skip run.length
  after.reach 1
  return (run, after)

/-- Passes over characters of a line as long as they are of a kind. -/
def skipWhile (s : Source) (p : Char → Bool) : Except Fault Source := do
  return (← s.span p).2

/-- Reads a line break, if there is one.  All but two kinds of break are
    kept as a line feed. -/
def takeBreak (s : Source) : Except Fault (List Char × Source) :=
  match s.rest with
  | '\r' :: '\n' :: rest => .ok (['\n'], { s with rest, mark := s.mark.nextLine 2 })
  | c :: rest =>
      if isBreak c then do
        s.reach 2
        return (if c == '\u2028' || c == '\u2029' then [c] else ['\n'],
          { s with rest, mark := s.mark.nextLine c.utf8Size })
      else .ok ([], s)
  | [] => .ok ([], s)

/-- Passes over the rest of a line, if it is a comment. -/
def skipComment (s : Source) : Except Fault Source :=
  if s.nextIs '#' then s.skipWhile (!isBreak ·) else .ok s

/-- Whether a mark of three equal characters stands alone at the start of
    the line. -/
def atIndicator (s : Source) (c : Char) : Bool :=
  s.mark.column == 0 && s.rest.take 3 == [c, c, c] && endsWord (s.ahead 3)

/-- Whether a document starts or ends here. -/
def atDocumentIndicator (s : Source) : Bool :=
  s.atIndicator '-' || s.atIndicator '.'

/-- A fault at the next character. -/
def fault (s : Source) (problem : Problem) (activity : Activity) (since : Mark) : Fault :=
  ⟨problem, s.mark, some (activity, since)⟩

end Source

end DiskKeys.Yaml
