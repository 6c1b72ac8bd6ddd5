import DiskKeys.Bytes.Hex
import DiskKeys.Text.Quoted
import DiskKeys.Text.Utf8

/-! # Paths

    A path is a byte string in which slashes separate names.  Two readings
    of it are kept apart: the *parts*, by which a path is taken to pieces
    without looking at any file system (empty pieces and dots that do not
    come first say nothing), and the *steps*, which are every piece in
    turn, for walking a file system. -/

namespace DiskKeys

/-- The name of a directory entry. -/
abbrev Name := Bytes

/-- A path as it was given. -/
structure Path where
  bytes : Bytes
  deriving DecidableEq, Repr

namespace Path

/-- The byte that separates names. -/
def slash : UInt8 := 0x2f

/-- The name of a directory inside itself. -/
def here : Name := [0x2e]

/-- The name of the directory above. -/
def above : Name := [0x2e, 0x2e]

/-- The path that a text spells. -/
def ofString (text : String) : Path :=
  ⟨Text.Utf8.encode text⟩

/-- A path as text. -/
def display (p : Path) : String :=
  Text.Utf8.lossy p.bytes

/-- A path between quotes.  Single quotes are told apart as well, and a byte
    that belongs to no character is given by its number. -/
def quoted (p : Path) : String :=
  .ofList ('"' :: Text.Utf8.showChars whole broken p.bytes ++ ['"'])
where
  whole (c : Char) : List Char :=
    if c = '\x27' then ['\\', c] else Text.escape c
  broken (bytes : Bytes) : List Char :=
    bytes.flatMap fun b => '\\' :: 'x' :: (Hex.encodeChars [b]).map Char.toUpper

/-- Whether a path starts at the root. -/
def isAbsolute (p : Path) : Bool :=
  p.bytes.head? == some slash

/-- Whether a path says that it names a directory. -/
def endsInSlash (p : Path) : Bool :=
  p.bytes.getLast? == some slash

/-- A path below another; an absolute one stands for itself. -/
def join (base p : Path) : Path :=
  if p.isAbsolute then p
  else if base.bytes.isEmpty || base.endsInSlash then ⟨base.bytes ++ p.bytes⟩
  else ⟨base.bytes ++ slash :: p.bytes⟩

/-- The pieces between slashes that are not empty. -/
def steps (p : Path) : List Name :=
  (p.bytes.splitOn slash).filter (· ≠ [])

/-- A piece of a path, with the number of bytes up to its end. -/
structure Part where
  name : Name
  stop : Nat
  deriving DecidableEq, Repr

/-- Pieces with their ends, the first of which starts at `start`. -/
def located (start : Nat) : List Name → List Part
  | [] => []
  | name :: rest => ⟨name, start + name.length⟩ :: located (start + name.length + 1) rest

/-- The pieces that say something: names, the directory above, and a dot
    that comes first. -/
def parts (p : Path) : List Part :=
  (located 0 (p.bytes.splitOn slash)).filter fun part =>
    part.name ≠ [] ∧ (part.name ≠ here ∨ part.stop = 1)

/-- The paths above a path, nearest first: it loses one part after the
    other, and at last only the root or the empty path is left. -/
def ancestors (p : Path) : List Path :=
  match p.parts.reverse with
  | [] => []
  | _ :: before =>
      before.map (fun part => ⟨p.bytes.take part.stop⟩)
        ++ [if p.isAbsolute then ⟨[slash]⟩ else ⟨[]⟩]

/-- The path without its last part, if it has one. -/
def parent? (p : Path) : Option Path :=
  p.ancestors.head?

/-- The name that a path ends in. -/
def fileName? (p : Path) : Option Name :=
  match p.parts.getLast? with
  | some part => if part.name = here ∨ part.name = above then none else some part.name
  | none => none

end Path

end DiskKeys
