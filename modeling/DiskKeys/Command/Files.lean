import DiskKeys.Archive
import DiskKeys.Bytes.Digest
import DiskKeys.Bytes.Hex
import DiskKeys.Files.Secret
import DiskKeys.KeyBlob
import DiskKeys.Log

/-! # Commands on files

    Splitting and combining key blobs, and extracting, listing and packing
    archives.  A command reads and writes secrets in a fixed order and
    stops at the first failure; what it did until then stays done.  It
    comes to a result, the tree afterwards, its log lines and what it
    printed.  At which writes the device fails is given from outside. -/

namespace DiskKeys

/-- A command that acts on files only. -/
inductive FileCommand where
  /-- Splits a blob into two key files. -/
  | split (blob bootKey rootKey : Path)
  /-- Combines two key files into a blob. -/
  | combine (bootKey rootKey output : Path)
  /-- Writes the files of an archive into a directory. -/
  | extract (archive dir : Path)
  /-- Prints what is in an archive; a directory may be named in vain. -/
  | list (archive : Path) (dir : Option Path)
  /-- Builds an archive of files, each under its own name. -/
  | pack (output : Path) (inputs : List Path)
  deriving DecidableEq, Repr

/-- Why a command on files failed. -/
inductive FileCommandError where
  | keyFile (cause : KeyFileError)
  /-- What should be split is no blob. -/
  | invalidBlob (cause : KeyBlobError)
  /-- The keys do not fit in a blob. -/
  | keyBlob (cause : KeyBlobError)
  /-- What should be extracted is no archive. -/
  | invalidArchive (archive : Path) (cause : ArchiveError)
  /-- What should be listed is no archive, or the files do not fit in
      one. -/
  | archive (cause : ArchiveError)
  /-- An entry has a name that no file in the directory can have. -/
  | unusableEntry (name : String)
  /-- A path does not end in a name that is text. -/
  | unusableInput (input : Path)
  deriving DecidableEq, Repr

/-! ## Reports of failures

    A failure is reported as a chain of texts, each followed by the text of
    its cause. -/

/-- The chain for a missing part of a buffer. -/
def BoundsError.chain (e : BoundsError) : List String :=
  [e.message]

/-- The chain for a failure with a blob. -/
def KeyBlobError.chain (e : KeyBlobError) : List String :=
  e.message :: match e with
    | .truncated cause => cause.chain
    | _ => []

/-- The chain for a failure with an archive. -/
def ArchiveError.chain (e : ArchiveError) : List String :=
  e.message :: match e with
    | .truncated cause => cause.chain
    | .bounds _ _ cause => cause.chain
    | _ => []

/-- The chain for a failure with a secret. -/
def KeyFileError.chain (e : KeyFileError) : List String :=
  e.message :: match e with
    | .inaccessible _ fault => [fault.message]
    | .notFound _ => []

/-- The chain for a failed command. -/
def FileCommandError.chain : FileCommandError → List String
  | .keyFile cause => cause.chain
  | .invalidBlob cause => "invalid sealed key blob" :: cause.chain
  | .keyBlob cause => cause.chain
  | .invalidArchive path cause =>
      s!"invalid specialization archive {path.display}" :: cause.chain
  | .archive cause => cause.chain
  | .unusableEntry name => [s!"refusing to write entry named {Text.quoted name}"]
  | .unusableInput input => [s!"{input.display} has no usable file name"]

/-! ## Running commands -/

/-- What a command comes to. -/
structure FileOutcome where
  result : Except FileCommandError Unit
  tree : FileTree
  log : List LogLine
  stdout : String

namespace FileOutcome

/-- A command that failed without a word. -/
def failed (t : FileTree) (e : FileCommandError) : FileOutcome :=
  ⟨.error e, t, [], ""⟩

/-- A command that came to its end and says so. -/
def finished (t : FileTree) (text : String) : FileOutcome :=
  ⟨.ok (), t, [.info text], ""⟩

/-- What a command comes to that says something before it goes on. -/
def after (lines : List LogLine) (o : FileOutcome) : FileOutcome :=
  { o with log := lines ++ o.log }

/-- What a command comes to that says something more if it has come to its
    end. -/
def before (o : FileOutcome) (lines : List LogLine) : FileOutcome :=
  match o.result with
  | .ok () => { o with log := o.log ++ lines }
  | .error _ => o

end FileOutcome

/-- What goes wrong in the writes of a command, by the number of the write. -/
abbrev Mishaps := Nat → Option Mishap

/-- What goes wrong after the first write. -/
def Mishaps.later (mishaps : Mishaps) : Mishaps :=
  fun n => mishaps (n + 1)

namespace FileTree

/-- Writes a secret, and goes on with the tree in which it is written. -/
def writing (t : FileTree) (mishap : Option Mishap) (p : Path) (secret : Bytes)
    (next : FileTree → FileOutcome) : FileOutcome :=
  match t.writeSecret mishap p secret with
  | (.error e, t) => .failed t (.keyFile e)
  | (.ok (), t) => (next t).after [writtenRemark p secret]

/-- Splits a blob into two key files, the boot key first. -/
def split (t : FileTree) (mishaps : Mishaps) (blob bootKey rootKey : Path) : FileOutcome :=
  match t.readSecret blob with
  | .error e => .failed t (.keyFile e)
  | .ok bytes =>
      match KeyBlob.decode bytes with
      | .error e => .failed t (.invalidBlob e)
      | .ok keys =>
          t.writing (mishaps 0) bootKey keys.boot fun t =>
            t.writing (mishaps 1) rootKey keys.root fun t =>
              .finished t s!"split {keys.summary} into {bootKey.display} and {rootKey.display}"

/-- Writes the output that is wanted, if there is one, and says so. -/
def deliver (t : FileTree) (mishap : Option Mishap) (output : Path)
    (wanted : Except FileCommandError Bytes) (remarks : List LogLine) (text : Bytes → String) :
    FileOutcome :=
  match wanted with
  | .error e => .failed t e
  | .ok bytes =>
      (t.writing mishap output bytes fun t => .finished t (text bytes)).after remarks

/-- The blob of two key files. -/
def blobOf (t : FileTree) (bootKey rootKey : Path) : Except FileCommandError Bytes := do
  let boot ← (t.readSecret bootKey).mapError .keyFile
  let root ← (t.readSecret rootKey).mapError .keyFile
  (KeyBlob.encode ⟨boot, root⟩).mapError .keyBlob

/-- Combines two key files into a blob. -/
def combine (t : FileTree) (mishap : Option Mishap) (bootKey rootKey output : Path) :
    FileOutcome :=
  t.deliver mishap output (t.blobOf bootKey rootKey) [] fun blob =>
    s!"wrote {blob.length} byte key blob to {output.display}"

/-- Whether a file in a directory can have a name. -/
def isEntryName (name : String) : Bool :=
  !(name.isEmpty || name == "." || name == ".."
    || name.toList.any fun c => c == '/' || c == '\x00')

/-- Writes files into a directory, up to the first that cannot be
    written. -/
def extractFiles (t : FileTree) (mishaps : Mishaps) (dir : Path) :
    List ProvisionFile → FileOutcome
  | [] => ⟨.ok (), t, [], ""⟩
  | f :: rest =>
      if isEntryName f.name then
        let path := dir.join (.ofString f.name)
        t.writing (mishaps 0) path f.payload fun t =>
          (extractFiles t mishaps.later dir rest).after [.info s!"extracted {path.display}"]
      else .failed t (.unusableEntry f.name)

/-- Writes the files of an archive into a directory. -/
def extract (t : FileTree) (mishaps : Mishaps) (archive dir : Path) : FileOutcome :=
  match t.readSecret archive with
  | .error e => .failed t (.keyFile e)
  | .ok bytes =>
      .after (Archive.remarks bytes) <|
        match Archive.decode bytes with
        | .error e => .failed t (.invalidArchive archive e)
        | .ok files =>
            (t.extractFiles mishaps dir files).before [Archive.releaseRemark files.length]

/-- The line that lists a file; it is given a digest of the payload. -/
def listing (digest : Bytes → String) (f : ProvisionFile) : String :=
  s!"{digest f.payload}\t{f.payload.length}\t{f.name}\n"

/-- Prints what is in an archive. -/
def listArchive (t : FileTree) (archive : Path) : FileOutcome :=
  match t.readSecret archive with
  | .error e => .failed t (.keyFile e)
  | .ok bytes =>
      .after (Archive.remarks bytes) <|
        match Archive.decode bytes with
        | .error e => .failed t (.archive e)
        | .ok files =>
            ⟨.ok (), t, [Archive.releaseRemark files.length],
              String.join (files.map (listing fun payload => Hex.encode (Digest.sha256 payload)))⟩

/-- A file as it is packed: its contents, under the name that its path
    ends in. -/
def packed (t : FileTree) (input : Path) : Except FileCommandError ProvisionFile := do
  match input.fileName?.bind Text.Utf8.decode? with
  | none => throw (.unusableInput input)
  | some name => return ⟨name, ← (t.readSecret input).mapError .keyFile⟩

/-- The archive of files. -/
def archiveOf (t : FileTree) (inputs : List Path) : Except FileCommandError Bytes := do
  let files ← inputs.mapM t.packed
  (Archive.encode files).mapError .archive

/-- Builds an archive of files. -/
def pack (t : FileTree) (mishap : Option Mishap) (output : Path) (inputs : List Path) :
    FileOutcome :=
  t.deliver mishap output (t.archiveOf inputs) [Archive.releaseRemark inputs.length] fun _ =>
    s!"packed {inputs.length} files into {output.display}"

end FileTree

/-- The remark on a command that is to be run. -/
def commandRemark (summary : String) : LogLine :=
  .debug (Text.record "Cli" [("command", summary)])

namespace FileCommand

/-- A command as text. -/
def summary : FileCommand → String
  | .split blob bootKey rootKey =>
      Text.record "Split" [("blob", blob.quoted), ("boot_key", bootKey.quoted),
        ("root_key", rootKey.quoted)]
  | .combine bootKey rootKey output =>
      Text.record "Combine" [("boot_key", bootKey.quoted), ("root_key", rootKey.quoted),
        ("output", output.quoted)]
  | .extract archive dir => extraction archive (some dir) false
  | .list archive dir => extraction archive dir true
  | .pack output inputs =>
      Text.record "Pack" [("output", output.quoted),
        ("files", "[" ++ ", ".intercalate (inputs.map Path.quoted) ++ "]")]
where
  /-- Listing is a way of extracting. -/
  extraction (archive : Path) (dir : Option Path) (list : Bool) : String :=
    Text.record "Extract" [("archive", archive.quoted), ("out_dir", Text.optional Path.quoted dir),
      ("list", toString list)]

/-- Runs a command. -/
def run (t : FileTree) (mishaps : Mishaps) (command : FileCommand) : FileOutcome :=
  .after [commandRemark command.summary] <|
    match command with
    | .split blob bootKey rootKey => t.split mishaps blob bootKey rootKey
    | .combine bootKey rootKey output => t.combine (mishaps 0) bootKey rootKey output
    | .extract archive dir => t.extract mishaps archive dir
    | .list archive _ => t.listArchive archive
    | .pack output inputs => t.pack (mishaps 0) output inputs

end FileCommand

end DiskKeys
