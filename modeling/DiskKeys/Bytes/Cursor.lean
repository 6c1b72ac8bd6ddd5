/-! # Reading bytes from the front

    A `Cursor` walks forward over a byte string.  It keeps the bytes it
    has not read and how many they are, so that every request is compared
    with what is left before a byte is touched: a read either yields
    exactly the bytes asked for or fails and leaves the cursor as it was.
    Lengths are natural numbers, so no sum of them can wrap around. -/

namespace DiskKeys

/-- A byte string. -/
abbrev Bytes := List UInt8

/-- Why bytes that were asked for are not there. -/
inductive BoundsError where
  /-- A read past the end of the buffer. -/
  | underflow (offset needed available : Nat)
  /-- A range that does not lie inside its buffer. -/
  | outOfBounds (offset len limit : Nat)
  deriving DecidableEq, Repr

/-- The text that reports the failure. -/
def BoundsError.message : BoundsError → String
  | .underflow offset needed available =>
      s!"buffer underflow: need {needed} bytes at offset {offset}, {available} available"
  | .outOfBounds offset len limit =>
      s!"range {offset}+{len} escapes buffer of {limit} bytes"

/-- A part of a buffer: the bytes from `start` up to, not including,
    `stop`. -/
structure Span where
  start : Nat
  stop : Nat
  deriving DecidableEq, Repr

/-- The span of `len` bytes at `offset`, if it fits in `limit` bytes. -/
def Span.within (offset len limit : Nat) : Except BoundsError Span :=
  if offset + len ≤ limit then .ok ⟨offset, offset + len⟩
  else .error (.outOfBounds offset len limit)

/-- The bytes of a buffer that a span covers. -/
def Span.slice (s : Span) (bytes : Bytes) : Bytes :=
  (bytes.drop s.start).take (s.stop - s.start)

/-- The number whose little-endian bytes are given. -/
def littleEndian : Bytes → Nat
  | [] => 0
  | b :: rest => b.toNat + 256 * littleEndian rest

/-- A place in a byte string that is read forward. -/
structure Cursor where
  /-- How many bytes have been read. -/
  position : Nat
  /-- The bytes that have not been read. -/
  rest : Bytes
  /-- How many bytes have not been read. -/
  remaining : Nat
  remaining_eq : remaining = rest.length

namespace Cursor

/-- The start of a byte string. -/
def ofBytes (bytes : Bytes) : Cursor :=
  ⟨0, bytes, bytes.length, rfl⟩

/-- Reads `n` bytes. -/
def take (c : Cursor) (n : Nat) : Except BoundsError (Bytes × Cursor) :=
  if n ≤ c.remaining then
    .ok (c.rest.take n,
      ⟨c.position + n, c.rest.drop n, c.remaining - n,
        by rw [c.remaining_eq, List.length_drop]⟩)
  else .error (.underflow c.position n c.remaining)

/-- Passes over `n` bytes. -/
def skip (c : Cursor) (n : Nat) : Except BoundsError Cursor :=
  (c.take n).map (·.2)

/-- Reads a little-endian number of two bytes. -/
def readU16 (c : Cursor) : Except BoundsError (UInt16 × Cursor) :=
  (c.take 2).map fun (bytes, c) => (.ofNat (littleEndian bytes), c)

/-- Reads a little-endian number of four bytes. -/
def readU32 (c : Cursor) : Except BoundsError (UInt32 × Cursor) :=
  (c.take 4).map fun (bytes, c) => (.ofNat (littleEndian bytes), c)

/-! ## Scripts of reads

    A list of reads is run in order; a read that fails is reported and the
    next one starts from the same place. -/

/-- One read. -/
inductive Step where
  | u16
  | u32
  | take (n : Nat)
  | skip (n : Nat)
  /-- Looks at all that is left without reading it. -/
  | rest
  deriving DecidableEq, Repr

/-- What a read that succeeds yields. -/
inductive Piece where
  | number (n : Nat)
  | bytes (b : Bytes)
  | skipped
  deriving DecidableEq, Repr

/-- Performs one read. -/
def step (c : Cursor) : Step → Except BoundsError Piece × Cursor
  | .u16 => settle (c.readU16.map fun (n, c) => (.number n.toNat, c))
  | .u32 => settle (c.readU32.map fun (n, c) => (.number n.toNat, c))
  | .take n => settle ((c.take n).map fun (b, c) => (.bytes b, c))
  | .skip n => settle ((c.skip n).map fun c => (.skipped, c))
  | .rest => (.ok (.bytes c.rest), c)
where
  /-- A read that failed has not moved the cursor. -/
  settle : Except BoundsError (Piece × Cursor) → Except BoundsError Piece × Cursor
    | .ok (piece, next) => (.ok piece, next)
    | .error e => (.error e, c)

/-- Performs reads in order; each result comes with the cursor after it. -/
def run (c : Cursor) : List Step → List (Except BoundsError Piece × Cursor)
  | [] => []
  | s :: rest => c.step s :: run (c.step s).2 rest

end Cursor

end DiskKeys
