import DiskKeys.Bytes.Cursor

/-! # Writing bytes at the back

    A `Builder` grows a byte string at its end.  Its view is `toBytes`:
    every operation appends the written form of its argument to it.  The
    room that a builder starts with never shows in what it holds. -/

namespace DiskKeys

/-- The `width` low bytes of a number, least significant first. -/
def toLittleEndian : (width : Nat) → Nat → Bytes
  | 0, _ => []
  | width + 1, n => .ofNat (n % 256) :: toLittleEndian width (n / 256)

/-- A byte string under construction. -/
structure Builder where
  data : Array UInt8

namespace Builder

/-- A builder that holds nothing and has room for `capacity` bytes. -/
def withCapacity (capacity : Nat) : Builder :=
  ⟨Array.emptyWithCapacity capacity⟩

/-- The bytes written so far. -/
def toBytes (b : Builder) : Bytes :=
  b.data.toList

/-- How many bytes have been written. -/
def size (b : Builder) : Nat :=
  b.data.size

/-- Writes bytes as they are. -/
def putBytes (b : Builder) (bytes : Bytes) : Builder :=
  ⟨b.data ++ bytes⟩

/-- Writes a number in two bytes. -/
def putU16 (b : Builder) (n : UInt16) : Builder :=
  b.putBytes (toLittleEndian 2 n.toNat)

/-- Writes a number in four bytes. -/
def putU32 (b : Builder) (n : UInt32) : Builder :=
  b.putBytes (toLittleEndian 4 n.toNat)

@[simp] theorem toBytes_withCapacity (capacity : Nat) :
    (withCapacity capacity).toBytes = [] := rfl

@[simp] theorem toBytes_putBytes (b : Builder) (bytes : Bytes) :
    (b.putBytes bytes).toBytes = b.toBytes ++ bytes :=
  Array.toList_appendList

@[simp] theorem toBytes_putU16 (b : Builder) (n : UInt16) :
    (b.putU16 n).toBytes = b.toBytes ++ toLittleEndian 2 n.toNat :=
  toBytes_putBytes b _

@[simp] theorem toBytes_putU32 (b : Builder) (n : UInt32) :
    (b.putU32 n).toBytes = b.toBytes ++ toLittleEndian 4 n.toNat :=
  toBytes_putBytes b _

/-- One write. -/
inductive Step where
  | u16 (n : UInt16)
  | u32 (n : UInt32)
  | bytes (b : Bytes)
  deriving DecidableEq, Repr

/-- Performs one write. -/
def step (b : Builder) : Step → Builder
  | .u16 n => b.putU16 n
  | .u32 n => b.putU32 n
  | .bytes bytes => b.putBytes bytes

/-- Performs writes in order; the list has the builder before each write
    and after the last. -/
def run (b : Builder) : List Step → List Builder
  | [] => [b]
  | s :: rest => b :: run (b.step s) rest

end Builder

end DiskKeys
