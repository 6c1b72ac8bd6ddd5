import DiskKeys.Files.Tree
import DiskKeys.Log

/-! # Secret files

    A secret is read whole.  It is written next to its path first, into a
    fresh file that only the owner may touch, and takes its path by a
    rename at the very end: until then nothing that was there has changed,
    and when a step fails the fresh file is taken away again.  Directories
    that were made on the way stay.

    A step fails if the tree does not allow it, or if the device fails at
    it.  The tree does not say when the device does: that is given from
    outside, as a mishap. -/

namespace DiskKeys

/-- Why a secret could not be read or written. -/
inductive KeyFileError where
  | notFound (path : Path)
  | inaccessible (path : Path) (fault : Fault)
  deriving DecidableEq, Repr

/-- The text that reports the failure. -/
def KeyFileError.message : KeyFileError → String
  | .notFound path => s!"key material not found at {path.display}"
  | .inaccessible path fault => s!"failed to access {path.display}: {fault.message}"

/-- The failure of an operation on a path; a missing file is a failure of
    its own. -/
def KeyFileError.at (path : Path) : Fault → KeyFileError
  | .noEntry => .notFound path
  | fault => .inaccessible path fault

/-- The steps of writing a secret at which the device can fail. -/
inductive WriteStep where
  /-- Making a directory. -/
  | directory (p : Path)
  /-- Making the fresh file. -/
  | create
  /-- Filling it; some bytes have been written by then. -/
  | write (written : Nat)
  | flush
  /-- Leaving nobody but the owner a right to it. -/
  | restrict
  | sync
  | rename
  deriving DecidableEq, Repr

/-- A step that the device fails at, though nothing in the tree stands in
    the way of it. -/
structure Mishap where
  step : WriteStep
  fault : Fault
  deriving DecidableEq, Repr

/-- Why the device fails at a step, if it does. -/
def Mishap.at? (mishap : Option Mishap) (step : WriteStep) : Option Fault :=
  (mishap.filter (·.step = step)).map (·.fault)

namespace FileTree

/-- The permission bits of a secret: its owner may read it. -/
def secretMode : Nat := 0o400

/-- The permission bits of a file that is not a secret yet. -/
def draftMode : Nat := 0o600

/-- The contents of a secret. -/
def readSecret (t : FileTree) (p : Path) : Except KeyFileError Bytes :=
  (t.read p).mapError (.at p)

/-- The directory in which a path ends. -/
def homeOf (p : Path) : Path :=
  match p.parent? with
  | some parent => if parent.bytes.isEmpty then .ofString "." else parent
  | none => .ofString "."

/-- The name that a draft has on its `n`-th try. -/
def draftName (n : Nat) : Name :=
  Text.Utf8.encode s!".tmp{n}"

/-- A name that a directory does not hold yet. -/
def freshName? (t : FileTree) (dir : Location) : Option Name :=
  ((List.range (t.entries.length + 1)).map draftName).find? fun name =>
    (t.node? (dir ++ [name])).isNone

/-! ## Writing -/

/-- Makes a fresh file in a directory. -/
def createDraft (t : FileTree) (mishap : Option Mishap) (dir : Path) :
    Except Fault (FileTree × Location) := do
  match ← t.resolve dir with
  | (loc, .directory) =>
      match Mishap.at? mishap .create, t.freshName? loc with
      | some fault, _ => throw fault
      | none, none => throw .noFreshName
      | none, some name => return (t.put (loc ++ [name]) (.file draftMode []), loc ++ [name])
  | _ => throw .notDirectory

/-- What making a secret of a fresh file comes to, and what the file is
    then. -/
def fillDraft (mishap : Option Mishap) (secret : Bytes) : Except Fault Unit × Node :=
  match mishap with
  | some ⟨.write written, fault⟩ => (.error fault, .file draftMode (secret.take written))
  | some ⟨.flush, fault⟩ => (.error fault, .file draftMode secret)
  | some ⟨.restrict, fault⟩ => (.error fault, .file draftMode secret)
  | some ⟨.sync, fault⟩ => (.error fault, .file secretMode secret)
  | _ => (.ok (), .file secretMode secret)

/-- Gives a draft its path. -/
def placeDraft (t : FileTree) (mishap : Option Mishap) (loc : Location) (p : Path) :
    Except Fault FileTree :=
  match Mishap.at? mishap .rename with
  | some fault => .error fault
  | none => (t.renameNode loc p false).map Prod.fst

/-- Replaces what is at a path by a secret. -/
def writeSecret (t : FileTree) (mishap : Option Mishap) (p : Path) (secret : Bytes) :
    Except KeyFileError Unit × FileTree :=
  let home := homeOf p
  match t.makeDirectories (Mishap.at? mishap <| .directory ·) home with
  | (.error e, t) => (.error (.at home e), t)
  | (.ok (), t) =>
      match t.createDraft mishap home with
      | .error e => (.error (.at home e), t)
      | .ok (drafted, loc) =>
          let (filled, draft) := fillDraft mishap secret
          let drafted := drafted.put loc draft
          match filled with
          | .error e => (.error (.at p e), drafted.erase loc)
          | .ok () =>
              match drafted.placeDraft mishap loc p with
              | .error e => (.error (.inaccessible p e), drafted.erase loc)
              | .ok t => (.ok (), t)

/-- The remark on a secret that has been written. -/
def writtenRemark (p : Path) (secret : Bytes) : LogLine :=
  .debug s!"wrote {secret.length} bytes to {p.display}"

end FileTree

end DiskKeys
