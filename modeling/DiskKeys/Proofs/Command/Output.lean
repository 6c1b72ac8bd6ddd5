import DiskKeys.Command.Files
import DiskKeys.Proofs.Attempt
import DiskKeys.Proofs.Files.Secret

/-! # Commands with one output

    A command that writes a secret fails with the write, or goes on in the
    tree in which the secret is written (`writing_of_error`,
    `writing_of_ok`).  Combining keys and packing files work in the same
    two steps: all inputs are read and encoded, and what that gives is
    written.  So such a command comes to one of three ends (`Delivers`),
    and in only one of them a file is another: nothing is written before
    everything has been read. -/

namespace DiskKeys

namespace FileOutcome

@[simp] theorem result_after (lines : List LogLine) (o : FileOutcome) :
    (o.after lines).result = o.result := rfl

@[simp] theorem tree_after (lines : List LogLine) (o : FileOutcome) :
    (o.after lines).tree = o.tree := rfl

@[simp] theorem result_before (o : FileOutcome) (lines : List LogLine) :
    (o.before lines).result = o.result := by
  unfold before
  split <;> rfl

@[simp] theorem tree_before (o : FileOutcome) (lines : List LogLine) :
    (o.before lines).tree = o.tree := by
  unfold before
  split <;> rfl

end FileOutcome

namespace FileTree

variable {t t' : FileTree} {mishap : Option Mishap} {output : Path}

/-! ## What is written -/

/-- What is wanted of two keys is their encoding. -/
theorem blobOf_eq_ok {bootKey rootKey : Path} {blob : Bytes} :
    t.blobOf bootKey rootKey = .ok blob ↔
      ∃ keys : KeyPair, t.readSecret bootKey = .ok keys.boot ∧
        t.readSecret rootKey = .ok keys.root ∧ KeyBlob.encode keys = .ok blob := by
  simp only [blobOf, Except.bind_eq_ok, Except.mapError_eq_ok]
  constructor
  · rintro ⟨boot, hboot, root, hroot, hencode⟩
    exact ⟨⟨boot, root⟩, hboot, hroot, hencode⟩
  · rintro ⟨keys, hboot, hroot, hencode⟩
    exact ⟨keys.boot, hboot, keys.root, hroot, hencode⟩

/-- What is wanted of files is the encoding of them all. -/
theorem archiveOf_eq_ok {inputs : List Path} {archive : Bytes} :
    t.archiveOf inputs = .ok archive ↔
      ∃ files, inputs.map t.packed = files.map .ok ∧ Archive.encode files = .ok archive := by
  simp only [archiveOf, Except.bind_eq_ok, Except.mapError_eq_ok, Except.mapM_eq_ok]

/-! ## How it is written -/

theorem writing_of_error {p : Path} {secret : Bytes} {e : KeyFileError}
    (h : t.writeSecret mishap p secret = (.error e, t')) (next : FileTree → FileOutcome) :
    t.writing mishap p secret next = .failed t' (.keyFile e) := by
  rw [writing, h]

theorem writing_of_ok {p : Path} {secret : Bytes}
    (h : t.writeSecret mishap p secret = (.ok (), t')) (next : FileTree → FileOutcome) :
    t.writing mishap p secret next = (next t').after [writtenRemark p secret] := by
  rw [writing, h]

/-- How a command ends that writes one output: it has nothing to write, or
    the write fails, or it succeeds. -/
inductive Delivers (t : FileTree) (mishap : Option Mishap) (output : Path)
    (wanted : Except FileCommandError Bytes) : Except FileCommandError Unit → FileTree → Prop where
  | unmade {e : FileCommandError} (hwanted : wanted = .error e) :
      Delivers t mishap output wanted (.error e) t
  | unwritten {bytes : Bytes} {cause : KeyFileError} {t' : FileTree} (hwanted : wanted = .ok bytes)
      (hwrite : t.writeSecret mishap output bytes = (.error cause, t')) :
      Delivers t mishap output wanted (.error (.keyFile cause)) t'
  | written {bytes : Bytes} {t' : FileTree} (hwanted : wanted = .ok bytes)
      (hwrite : t.writeSecret mishap output bytes = (.ok (), t')) :
      Delivers t mishap output wanted (.ok ()) t'

theorem delivers_deliver (t : FileTree) (mishap : Option Mishap) (output : Path)
    (wanted : Except FileCommandError Bytes) (remarks : List LogLine) (text : Bytes → String) :
    Delivers t mishap output wanted (t.deliver mishap output wanted remarks text).result
      (t.deliver mishap output wanted remarks text).tree := by
  cases wanted with
  | error e => exact .unmade rfl
  | ok bytes =>
      obtain ⟨result, t', hwrite⟩ :
          ∃ result t', t.writeSecret mishap output bytes = (result, t') := ⟨_, _, rfl⟩
      cases result with
      | error cause =>
          simp only [deliver, writing_of_error hwrite, FileOutcome.result_after,
            FileOutcome.tree_after]
          exact .unwritten rfl hwrite
      | ok u =>
          simp only [deliver, writing_of_ok hwrite, FileOutcome.result_after,
            FileOutcome.tree_after]
          exact .written rfl hwrite

theorem delivers_combine (t : FileTree) (mishap : Option Mishap) (bootKey rootKey output : Path) :
    Delivers t mishap output (t.blobOf bootKey rootKey)
      (t.combine mishap bootKey rootKey output).result
      (t.combine mishap bootKey rootKey output).tree :=
  delivers_deliver t mishap output _ _ _

theorem delivers_pack (t : FileTree) (mishap : Option Mishap) (output : Path)
    (inputs : List Path) :
    Delivers t mishap output (t.archiveOf inputs) (t.pack mishap output inputs).result
      (t.pack mishap output inputs).tree :=
  delivers_deliver t mishap output _ _ _

namespace Delivers

variable {wanted : Except FileCommandError Bytes}

/-- Success means that there was something to write and it has been
    written. -/
theorem exists_writeSecret (h : Delivers t mishap output wanted (.ok ()) t') :
    ∃ bytes, wanted = .ok bytes ∧ t.writeSecret mishap output bytes = (.ok (), t') := by
  cases h with
  | written hwanted hwrite => exact ⟨_, hwanted, hwrite⟩

/-- Whatever made such a command fail, no file is another. -/
theorem changesOnly_of_error {e : FileCommandError}
    (h : Delivers t mishap output wanted (.error e) t') :
    t.ChangesOnly [] (homesOf output) t' := by
  cases h with
  | unmade hwanted => exact .refl t [] _
  | unwritten hwanted hwrite => exact changesOnly_of_writeSecret_error hwrite

end Delivers

/-- The second write of a command meets a device without room. -/
def noRoomAtSecond : Mishaps := fun n => if n = 1 then some noRoom else none

end FileTree

end DiskKeys
