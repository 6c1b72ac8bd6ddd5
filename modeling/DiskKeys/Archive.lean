import DiskKeys.Bytes.Builder
import DiskKeys.Log
import DiskKeys.Text.Quoted
import DiskKeys.Text.Utf16

/-! # Provisioning archives

    An archive carries named files to a machine on its first boot:

        u32 total length, u32 file count
        count x { u32 type (0), u32 name size, u32 name offset,
                  u32 payload size, u32 payload offset }

    all little-endian.  Offsets count from the start of their own entry
    header; name and payload may lie anywhere in the rest of the archive,
    and the next entry begins where the farther of the two ends.  Names
    are UTF-16.  Decoding narrows every unit of a name to one byte, stops
    at the first zero unit, and hands out `unattend.xml` under another
    name; it trusts neither the total length nor the type, and only remarks
    on a total length that is not right. -/

namespace DiskKeys

/-- A named payload. -/
structure ProvisionFile where
  name : String
  payload : Bytes
  deriving DecidableEq, Repr

/-- A line about the file that shows no byte of its payload. -/
def ProvisionFile.summary (f : ProvisionFile) : String :=
  "SpecializationFile \x7b name: " ++ Text.quoted f.name
    ++ s!", payload: <{f.payload.length} bytes>" ++ " \x7d"

namespace Archive

/-- The parts of an entry that lie outside its header. -/
inductive Part where
  | name
  | payload
  deriving DecidableEq, Repr

/-- The word for a part in messages. -/
def Part.label : Part → String
  | .name => "name"
  | .payload => "payload"

/-- The sizes that are written in thirty-two bits. -/
inductive Measure where
  | fileCount
  | totalLength
  | nameSize
  | payloadSize
  | payloadOffset
  deriving DecidableEq, Repr

/-- The words for a size in messages. -/
def Measure.label : Measure → String
  | .fileCount => "file count"
  | .totalLength => "total length"
  | .nameSize => "name size"
  | .payloadSize => "payload size"
  | .payloadOffset => "payload offset"

end Archive

/-- Why bytes are not an archive, or files do not fit in one. -/
inductive ArchiveError where
  | truncated (cause : BoundsError)
  | bounds (index : Nat) (part : Archive.Part) (cause : BoundsError)
  | oddNameSize (index : Nat) (size : Nat)
  | overlap (index : Nat) (extent : Nat)
  | tooLarge (name : String) (what : Archive.Measure)
  | nulInName (name : String)
  deriving DecidableEq, Repr

/-- The text that reports the failure. -/
def ArchiveError.message : ArchiveError → String
  | .truncated cause => s!"specialization archive truncated: {cause.message}"
  | .bounds index part cause =>
      s!"entry {index}: {part.label} out of bounds: {cause.message}"
  | .oddNameSize index size =>
      s!"entry {index}: name size {size} is not a whole number of UTF-16 units"
  | .overlap index extent =>
      s!"entry {index}: data ends inside its own header ({extent} bytes)"
  | .tooLarge name what => what.label ++ " of \x60" ++ name ++ "\x60 does not fit in 32 bits"
  | .nulInName name => s!"entry name {Text.quoted name} contains NUL"

namespace Archive

/-- The bytes of the header of an archive. -/
def headerSize : Nat := 8

/-- The bytes of the header of an entry. -/
def entryHeaderSize : Nat := 20

/-- The stored name that is handed out as `exposedAs`. -/
def hiddenName : String := "unattend.xml"

/-- The name under which `hiddenName` is handed out. -/
def exposedAs : String := "specialize"

/-- The name that is handed out for a stored name. -/
def expose (name : String) : String :=
  if name = hiddenName then exposedAs else name

/-! ## Decoding -/

/-- The units whose little-endian bytes are given; half a unit at the end
    is left out. -/
def unitsOf : Bytes → List UInt16
  | low :: high :: rest => .ofNat (littleEndian [low, high]) :: unitsOf rest
  | _ => []

/-- The character of the low byte of a unit. -/
def narrow (unit : UInt16) : Char :=
  .ofNat (unit.toNat % 256)

/-- The name that units spell: those before the first zero, each narrowed
    to its low byte. -/
def spell (units : List UInt16) : String :=
  .ofList ((units.takeWhile (· ≠ 0)).map narrow)

/-- The fields of an entry header that decoding goes by. -/
structure EntryHeader where
  nameSize : UInt32
  nameOffset : UInt32
  payloadSize : UInt32
  payloadOffset : UInt32
  deriving DecidableEq, Repr

/-- Reads an entry header. -/
def EntryHeader.read (c : Cursor) : Except BoundsError (EntryHeader × Cursor) := do
  let (_, c) ← c.readU32
  let (nameSize, c) ← c.readU32
  let (nameOffset, c) ← c.readU32
  let (payloadSize, c) ← c.readU32
  let (payloadOffset, c) ← c.readU32
  return (⟨nameSize, nameOffset, payloadSize, payloadOffset⟩, c)

/-- Where the parts of an entry lie, in an entry that has `limit` bytes
    from its header to the end of the archive. -/
def EntryHeader.spans (h : EntryHeader) (index limit : Nat) :
    Except ArchiveError (Span × Span) := do
  if h.nameSize.toNat % 2 ≠ 0 then throw (.oddNameSize index h.nameSize.toNat)
  let name ← (Span.within h.nameOffset.toNat h.nameSize.toNat limit).mapError
    (.bounds index .name)
  let payload ← (Span.within h.payloadOffset.toNat h.payloadSize.toNat limit).mapError
    (.bounds index .payload)
  if max name.stop payload.stop < entryHeaderSize then
    throw (.overlap index (max name.stop payload.stop))
  return (name, payload)

/-- Reads one entry and passes over its data. -/
def readEntry (index : Nat) (c : Cursor) : Except ArchiveError (ProvisionFile × Cursor) := do
  let (header, next) ← (EntryHeader.read c).mapError .truncated
  let (name, payload) ← header.spans index c.remaining
  let file : ProvisionFile :=
    ⟨expose (spell (unitsOf (name.slice c.rest))), payload.slice c.rest⟩
  let next ← (next.skip (max name.stop payload.stop - entryHeaderSize)).mapError .truncated
  return (file, next)

/-- Reads a number of entries, the first of which has the given index. -/
def readEntries : (count index : Nat) → Cursor → Except ArchiveError (List ProvisionFile)
  | 0, _, _ => .ok []
  | count + 1, index, c => do
      let (file, c) ← readEntry index c
      let files ← readEntries count (index + 1) c
      return file :: files

/-- The files in an archive: all of them, or none. -/
def decode (archive : Bytes) : Except ArchiveError (List ProvisionFile) := do
  let (_, c) ← (Cursor.ofBytes archive).readU32.mapError .truncated
  let (count, c) ← c.readU32.mapError .truncated
  readEntries count.toNat 0 c

/-! ## Remarks

    What is said in the log while an archive is decoded. -/

/-- The total length and the number of entries that an archive declares, and
    where its entries begin. -/
def declared (archive : Bytes) : Except BoundsError ((UInt32 × UInt32) × Cursor) := do
  let (total, c) ← (Cursor.ofBytes archive).readU32
  let (count, c) ← c.readU32
  return ((total, count), c)

/-- The remark on a total length that is not that of the archive. -/
def lengthRemarks (archive : Bytes) : List LogLine :=
  match declared archive with
  | .ok ((total, _), _) =>
      if total.toNat = archive.length then []
      else [.debug s!"archive header declares {total} bytes, buffer holds {archive.length}"]
  | .error _ => []

/-- The remark on an entry that has been read. -/
def entryRemark (index : Nat) (f : ProvisionFile) : LogLine :=
  .debug (s!"entry {index}: \x60" ++ f.name ++ s!"\x60 with {f.payload.length} byte payload")

/-- The remarks on entries, up to the first that cannot be read. -/
def entryRemarksFrom : (count index : Nat) → Cursor → List LogLine
  | 0, _, _ => []
  | count + 1, index, c =>
      match readEntry index c with
      | .ok (file, c) => entryRemark index file :: entryRemarksFrom count (index + 1) c
      | .error _ => []

/-- The remarks on the entries of an archive. -/
def entryRemarks (archive : Bytes) : List LogLine :=
  match declared archive with
  | .ok ((_, count), c) => entryRemarksFrom count.toNat 0 c
  | .error _ => []

/-- The remarks on an archive. -/
def remarks (archive : Bytes) : List LogLine :=
  lengthRemarks archive ++ entryRemarks archive

/-- The remark on a number of files that are done with. -/
def releaseRemark (count : Nat) : LogLine :=
  .debug s!"releasing {count} specialization files"

/-! ## Encoding -/

/-- The little-endian bytes of units. -/
def unitBytes (units : List UInt16) : Bytes :=
  units.flatMap fun unit => toLittleEndian 2 unit.toNat

/-- The bytes of a name as it is stored. -/
def nameBytes (name : String) : Bytes :=
  unitBytes (Text.Utf16.units name.toList)

/-- The bytes that a file takes in an archive. -/
def entrySize (f : ProvisionFile) : Nat :=
  entryHeaderSize + (nameBytes f.name).length + f.payload.length

/-- The bytes that an archive of the files takes. -/
def totalSize (files : List ProvisionFile) : Nat :=
  files.foldl (fun n f => n + entrySize f) headerSize

/-- A size as a field, if it fits. -/
def field (n : Nat) (name : String) (what : Measure) : Except ArchiveError UInt32 :=
  if n < UInt32.size then .ok (.ofNat n) else .error (.tooLarge name what)

/-- Writes one entry: the header, the name right after it, and then the
    payload. -/
def putEntry (b : Builder) (f : ProvisionFile) : Except ArchiveError Builder := do
  let name := nameBytes f.name
  let nameSize ← field name.length f.name .nameSize
  let payloadSize ← field f.payload.length f.name .payloadSize
  let payloadOffset ← field (entryHeaderSize + name.length) f.name .payloadOffset
  let b := b.putU32 0
  let b := b.putU32 nameSize
  let b := b.putU32 (.ofNat entryHeaderSize)
  let b := b.putU32 payloadSize
  let b := b.putU32 payloadOffset
  return (b.putBytes name).putBytes f.payload

/-- An archive of the files.  A name must not contain NUL, for decoding
    would end it there. -/
def encode (files : List ProvisionFile) : Except ArchiveError Bytes := do
  if let some f := files.find? (·.name.toList.contains '\x00') then
    throw (.nulInName f.name)
  let fileCount ← field files.length "archive" .fileCount
  let totalLength ← field (totalSize files) "archive" .totalLength
  let b := (Builder.withCapacity (totalSize files)).putU32 totalLength
  let b ← files.foldlM putEntry (b.putU32 fileCount)
  return b.toBytes

end Archive

end DiskKeys
