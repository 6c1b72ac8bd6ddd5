/-! # Blank characters, lines

    Blank is what Unicode calls white space.  A line ends at a line feed;
    a carriage return in front of it is blank and so falls away when the
    line is trimmed. -/

namespace DiskKeys.Text

/-- The White_Space characters. -/
def isBlank (c : Char) : Bool :=
  let n := c.toNat
  (9 ≤ n && n ≤ 13) || n == 0x20 || n == 0x85 || n == 0xa0 || n == 0x1680
    || (0x2000 ≤ n && n ≤ 0x200a) || n == 0x2028 || n == 0x2029 || n == 0x202f
    || n == 0x205f || n == 0x3000

/-- Text without the blanks at its end. -/
def trimEnd (text : List Char) : List Char :=
  (text.reverse.dropWhile isBlank).reverse

/-- Text without the blanks at its start and its end. -/
def trim (text : List Char) : List Char :=
  trimEnd (text.dropWhile isBlank)

/-- The lines of a text.  A line feed at the very end leaves an empty line
    behind it. -/
def lines (text : List Char) : List (List Char) :=
  text.splitOn '\n'

/-- The lines of a text, each without the blanks around it. -/
def trimmedLines (text : List Char) : List (List Char) :=
  (lines text).map trim

end DiskKeys.Text
