import DiskKeys.Bytes.Builder

/-! # Key blobs

    A key blob carries the boot key and the root key of a machine:

        u16 count (= 2)
        count x { u16 tag (1 = boot, 2 = root), u16 size, size bytes }

    all little-endian.  The entries may come in either order and bytes
    after the second are ignored.  Decoding fills one place per kind while
    it reads, so that a second entry of a kind is refused. -/

namespace DiskKeys

/-- What a key unlocks. -/
inductive KeyKind where
  | boot
  | root
  deriving DecidableEq, Repr

/-- The word for a kind in messages. -/
def KeyKind.label : KeyKind → String
  | .boot => "boot"
  | .root => "root"

/-- The tag of a kind in a blob. -/
def KeyKind.tag : KeyKind → UInt16
  | .boot => 1
  | .root => 2

/-- Why bytes are not a key blob, or keys do not fit in one. -/
inductive KeyBlobError where
  | truncated (cause : BoundsError)
  | invalidCount (count : UInt16)
  | unknownTag (tag : UInt16)
  | duplicateKey (kind : KeyKind)
  | keyTooLarge (kind : KeyKind) (len : Nat)
  deriving DecidableEq, Repr

/-- The most bytes that an entry holds. -/
def KeyBlob.maxKeySize : Nat := 65535

/-- How many entries a blob carries. -/
def KeyBlob.entryCount : UInt16 := 2

/-- The text that reports the failure. -/
def KeyBlobError.message : KeyBlobError → String
  | .truncated cause => s!"sealed key blob truncated: {cause.message}"
  | .invalidCount count =>
      s!"expected {KeyBlob.entryCount} key entries, blob declares {count}"
  | .unknownTag tag => s!"unknown key type tag {tag}"
  | .duplicateKey kind => s!"blob carries two {kind.label} keys"
  | .keyTooLarge kind len =>
      s!"{kind.label} key is {len} bytes, at most {KeyBlob.maxKeySize} fit in a blob entry"

/-- The kind that a tag stands for. -/
def KeyKind.ofTag (tag : UInt16) : Except KeyBlobError KeyKind :=
  if tag = 1 then .ok .boot
  else if tag = 2 then .ok .root
  else .error (.unknownTag tag)

/-- The two keys of a machine. -/
structure KeyPair where
  boot : Bytes
  root : Bytes
  deriving DecidableEq, Repr

namespace KeyPair

/-- The key of a kind. -/
def get (keys : KeyPair) : KeyKind → Bytes
  | .boot => keys.boot
  | .root => keys.root

/-- A line about the keys that shows no byte of them. -/
def summary (keys : KeyPair) : String :=
  "SealedKeys \x7b boot: " ++ s!"<{keys.boot.length} bytes>, root: <{keys.root.length} bytes>"
    ++ " \x7d"

end KeyPair

namespace KeyBlob

/-- The places for the two keys, filled entry by entry. -/
structure Places where
  boot : Option Bytes
  root : Option Bytes
  deriving DecidableEq, Repr

/-- What is in the place of a kind. -/
def Places.get (p : Places) : KeyKind → Option Bytes
  | .boot => p.boot
  | .root => p.root

/-- Puts a key into the place of its kind, which must be free. -/
def Places.fill (p : Places) (kind : KeyKind) (key : Bytes) : Except KeyBlobError Places :=
  if (p.get kind).isSome then .error (.duplicateKey kind)
  else match kind with
    | .boot => .ok { p with boot := some key }
    | .root => .ok { p with root := some key }

/-- The keys in filled places.  A place that stayed empty means that the
    other kind came twice. -/
def Places.complete (p : Places) : Except KeyBlobError KeyPair :=
  match p.boot, p.root with
  | some boot, some root => .ok ⟨boot, root⟩
  | none, _ => .error (.duplicateKey .root)
  | _, none => .error (.duplicateKey .boot)

/-- Reads one entry: its tag, its size, and then that many bytes. -/
def readEntry (c : Cursor) : Except KeyBlobError (KeyKind × Bytes × Cursor) := do
  let (tag, c) ← c.readU16.mapError .truncated
  let (size, c) ← c.readU16.mapError .truncated
  let kind ← KeyKind.ofTag tag
  let (key, c) ← (c.take size.toNat).mapError .truncated
  return (kind, key, c)

/-- Reads a number of entries into places. -/
def readEntries : (count : Nat) → Places → Cursor → Except KeyBlobError Places
  | 0, p, _ => .ok p
  | count + 1, p, c => do
      let (kind, key, c) ← readEntry c
      readEntries count (← p.fill kind key) c

/-- Splits a blob into its keys. -/
def decode (blob : Bytes) : Except KeyBlobError KeyPair := do
  let (count, c) ← (Cursor.ofBytes blob).readU16.mapError .truncated
  if count ≠ entryCount then throw (.invalidCount count)
  let places ← readEntries count.toNat ⟨none, none⟩ c
  places.complete

/-- Writes one entry. -/
def putEntry (b : Builder) (kind : KeyKind) (key : Bytes) : Except KeyBlobError Builder :=
  if key.length ≤ maxKeySize then
    .ok (((b.putU16 kind.tag).putU16 (.ofNat key.length)).putBytes key)
  else .error (.keyTooLarge kind key.length)

/-- Combines keys into a blob, the boot key first. -/
def encode (keys : KeyPair) : Except KeyBlobError Bytes := do
  let b := (Builder.withCapacity (10 + keys.boot.length + keys.root.length)).putU16 entryCount
  let b ← putEntry b .boot keys.boot
  let b ← putEntry b .root keys.root
  return b.toBytes

end KeyBlob

end DiskKeys
