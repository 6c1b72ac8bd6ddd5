import DiskKeys.Proofs.Archive.Remarks
import DiskKeys.Proofs.Command.Output
import DiskKeys.Proofs.Files.Lockstep
import DiskKeys.Proofs.KeyBlob.RoundTrip

/-! # Commands show lengths of secrets only

    Two runs of a command on trees that differ in the bytes of files go
    through the same steps, as long as what they read decodes to secrets of
    equal lengths (`Comparable`): whether and why an encoder refuses
    depends on lengths and names alone, and so does what a write comes to.
    So each command reports the same in both runs and leaves trees that
    match (`FileOutcome.Alike`).  Two things may still tell the runs apart:
    a remark on the total length that an archive declares, and how long
    the files are that neither run has touched (`run_shows_lengths`). -/

namespace DiskKeys

open FileTree

/-- Two runs of a command report the same and leave trees that match. -/
structure FileOutcome.Alike (r : Location → Node → Node → Prop) (o o' : FileOutcome) : Prop where
  result : o.result = o'.result
  log : o.log = o'.log
  stdout : o.stdout = o'.stdout
  tree : o.tree.Matches r o'.tree

theorem FileOutcome.Alike.after {r : Location → Node → Node → Prop} {o o' : FileOutcome}
    (h : o.Alike r o') (lines : List LogLine) : (o.after lines).Alike r (o'.after lines) :=
  ⟨h.result, congrArg (lines ++ ·) h.log, h.stdout, h.tree⟩

theorem FileOutcome.Alike.before {r : Location → Node → Node → Prop} {o o' : FileOutcome}
    (h : o.Alike r o') (lines : List LogLine) : (o.before lines).Alike r (o'.before lines) := by
  obtain ⟨result, t, log, stdout⟩ := o
  obtain ⟨result', t', log', stdout'⟩ := o'
  obtain ⟨hresult, hlog, hstdout, htree⟩ := h
  obtain rfl : result = result' := hresult
  cases result with
  | error e => exact ⟨rfl, hlog, hstdout, htree⟩
  | ok u => exact ⟨rfl, congrArg (· ++ lines) hlog, hstdout, htree⟩

namespace FileTree

variable {r : Location → Node → Node → Prop} {t t' : FileTree}

theorem Matches.failed (h : t.Matches r t') (e : FileCommandError) :
    (FileOutcome.failed t e).Alike r (FileOutcome.failed t' e) := ⟨rfl, rfl, rfl, h⟩

theorem Matches.finished (h : t.Matches r t') (text : String) :
    (FileOutcome.finished t text).Alike r (FileOutcome.finished t' text) := ⟨rfl, rfl, rfl, h⟩

/-! ## Reading -/

/-- A path is read in vain in one of two trees, or as many bytes are read in
    both. -/
def SameSize (t t' : FileTree) (p : Path) : Prop :=
  ∀ bytes bytes', t.readSecret p = .ok bytes → t'.readSecret p = .ok bytes' →
    bytes.length = bytes'.length

theorem Matches.readSecret_of_sameSize (h : t.Matches r t') {p : Path} (hsize : t.SameSize t' p) :
    (t.readSecret p).Alike (fun bytes bytes' => bytes.length = bytes'.length)
      (t'.readSecret p) := by
  rcases (h.readSecret p).outcomes with ⟨e, hread, hread'⟩ | ⟨bytes, bytes', hread, hread', -⟩
  · rw [hread, hread']
    exact .error e
  · rw [hread, hread']
    exact .ok (hsize bytes bytes' hread hread')

theorem Matches.blobOf (h : t.Matches r t') {bootKey rootKey : Path}
    (hboot : t.SameSize t' bootKey) (hroot : t.SameSize t' rootKey) :
    (t.blobOf bootKey rootKey).Alike (fun blob blob' => blob.length = blob'.length)
      (t'.blobOf bootKey rootKey) := by
  refine .bind ((h.readSecret_of_sameSize hboot).mapError _) ?_
  intro boot boot' hboot
  refine .bind ((h.readSecret_of_sameSize hroot).mapError _) ?_
  intro root root' hroot
  have hencode : (KeyBlob.encode ⟨boot, root⟩).Alike
      (fun blob blob' => blob.length = blob'.length) (KeyBlob.encode ⟨boot', root'⟩) :=
    KeyBlob.encode_alike hboot hroot
  exact hencode.mapError _

theorem Matches.packed (h : t.Matches r t') {input : Path} (hsize : t.SameSize t' input) :
    (t.packed input).Alike (fun f f' => Archive.profile f = Archive.profile f')
      (t'.packed input) := by
  unfold FileTree.packed
  cases input.fileName?.bind Text.Utf8.decode? with
  | none => exact .error _
  | some name =>
      refine .bind ((h.readSecret_of_sameSize hsize).mapError _) ?_
      intro bytes bytes' hlength
      exact .ok (congrArg (Prod.mk name) hlength)

theorem Matches.archiveOf (h : t.Matches r t') {inputs : List Path}
    (hsizes : ∀ input ∈ inputs, t.SameSize t' input) :
    (t.archiveOf inputs).Alike (fun archive archive' => archive.length = archive'.length)
      (t'.archiveOf inputs) := by
  have hfiles : (inputs.mapM t.packed).Alike
      (fun files files' => files.map Archive.profile = files'.map Archive.profile)
      (inputs.mapM t'.packed) := by
    induction inputs with
    | nil => exact .ok rfl
    | cons input rest ih =>
        rw [List.mapM_cons, List.mapM_cons]
        refine .bind (h.packed (hsizes input List.mem_cons_self)) ?_
        intro f f' hf
        refine .bind (ih fun p hp => hsizes p (List.mem_cons_of_mem input hp)) ?_
        intro files files' hrest
        refine .ok ?_
        rw [List.map_cons, List.map_cons, hf, hrest]
  refine .bind hfiles ?_
  intro files files' hprofile
  exact (Archive.encode_alike hprofile).mapError _

/-! ## Writing -/

/-- A write of as many bytes comes to the same, and what follows it runs
    alike. -/
theorem Matches.writing (h : t.Matches r t') (hr : Coarse r) (ht : t.WellFormed)
    (mishap : Option Mishap) (p : Path) {secret secret' : Bytes}
    (hlength : secret.length = secret'.length) {next next' : FileTree → FileOutcome}
    (hnext : ∀ t t', t.Matches r t' → t.WellFormed → (next t).Alike r (next' t')) :
    (t.writing mishap p secret next).Alike r (t'.writing mishap p secret' next') := by
  have hremark : writtenRemark p secret = writtenRemark p secret' := by
    rw [writtenRemark, writtenRemark, hlength]
  have hwrite := h.lockstep_writeSecret hr ht mishap p hlength
  have hwell := wellFormed_writeSecret ht mishap p secret
  unfold FileTree.writing
  generalize t.writeSecret mishap p secret = write, t'.writeSecret mishap p secret' = write'
    at hwrite hwell ⊢
  obtain ⟨result, t₁⟩ := write
  obtain ⟨result', t₁'⟩ := write'
  obtain ⟨hresult, htree⟩ := hwrite
  obtain rfl : result = result' := hresult
  cases result with
  | error e => exact htree.failed _
  | ok u =>
      rw [hremark]
      exact (hnext t₁ t₁' htree hwell).after _

/-! ## Commands -/

theorem Matches.split (h : t.Matches r t') (hr : Coarse r) (ht : t.WellFormed)
    {blob : Path} {bytes bytes' : Bytes} {keys keys' : KeyPair}
    (hread : t.readSecret blob = .ok bytes) (hread' : t'.readSecret blob = .ok bytes')
    (hdecode : KeyBlob.decode bytes = .ok keys) (hdecode' : KeyBlob.decode bytes' = .ok keys')
    (hboot : keys.boot.length = keys'.boot.length) (hroot : keys.root.length = keys'.root.length)
    (mishaps : Mishaps) (bootKey rootKey : Path) :
    (t.split mishaps blob bootKey rootKey).Alike r (t'.split mishaps blob bootKey rootKey) := by
  have hsummary : keys.summary = keys'.summary := by
    unfold KeyPair.summary
    rw [hboot, hroot]
  simp only [FileTree.split, hread, hread', hdecode, hdecode', hsummary]
  refine h.writing hr ht _ bootKey hboot ?_
  intro t₁ t₁' h₁ ht₁
  refine h₁.writing hr ht₁ _ rootKey hroot ?_
  intro t₂ t₂' h₂ _
  exact h₂.finished _

/-- Outputs of one length are delivered alike. -/
theorem Matches.deliver (h : t.Matches r t') (hr : Coarse r) (ht : t.WellFormed)
    (mishap : Option Mishap) (output : Path) {wanted wanted' : Except FileCommandError Bytes}
    (hwanted : wanted.Alike (fun bytes bytes' => bytes.length = bytes'.length) wanted')
    (remarks : List LogLine) {text : Bytes → String}
    (htext : ∀ bytes bytes', bytes.length = bytes'.length → text bytes = text bytes') :
    (t.deliver mishap output wanted remarks text).Alike r
      (t'.deliver mishap output wanted' remarks text) := by
  rcases hwanted.outcomes with ⟨e, rfl, rfl⟩ | ⟨bytes, bytes', rfl, rfl, hlength⟩
  · exact h.failed e
  · simp only [FileTree.deliver, htext bytes bytes' hlength]
    refine (h.writing hr ht mishap output hlength ?_).after remarks
    intro t₁ t₁' h₁ _
    exact h₁.finished _

theorem Matches.combine (h : t.Matches r t') (hr : Coarse r) (ht : t.WellFormed)
    {bootKey rootKey : Path} (hboot : t.SameSize t' bootKey) (hroot : t.SameSize t' rootKey)
    (mishap : Option Mishap) (output : Path) :
    (t.combine mishap bootKey rootKey output).Alike r
      (t'.combine mishap bootKey rootKey output) := by
  refine h.deliver hr ht mishap output (h.blobOf hboot hroot) [] ?_
  intro blob blob' hlength
  rw [hlength]

theorem Matches.pack (h : t.Matches r t') (hr : Coarse r) (ht : t.WellFormed)
    {inputs : List Path} (hsizes : ∀ input ∈ inputs, t.SameSize t' input)
    (mishap : Option Mishap) (output : Path) :
    (t.pack mishap output inputs).Alike r (t'.pack mishap output inputs) :=
  h.deliver hr ht mishap output (h.archiveOf hsizes) _ fun _ _ _ => rfl

theorem Matches.extractFiles {files files' : List ProvisionFile} (h : t.Matches r t')
    (hr : Coarse r) (ht : t.WellFormed)
    (hprofile : files.map Archive.profile = files'.map Archive.profile) (mishaps : Mishaps)
    (dir : Path) :
    (t.extractFiles mishaps dir files).Alike r (t'.extractFiles mishaps dir files') := by
  induction files generalizing files' t t' mishaps with
  | nil =>
      obtain rfl : files' = [] := List.map_eq_nil_iff.mp hprofile.symm
      exact ⟨rfl, rfl, rfl, h⟩
  | cons f rest ih =>
      cases files' with
      | nil => exact nomatch hprofile
      | cons f' rest' =>
          obtain ⟨hf, hrest⟩ := List.cons.inj hprofile
          obtain ⟨hname, hlength⟩ := Prod.mk.inj hf
          unfold FileTree.extractFiles
          rw [hname]
          by_cases hentry : isEntryName f'.name = true
          · rw [if_pos hentry, if_pos hentry]
            refine h.writing hr ht _ _ hlength ?_
            intro t₁ t₁' h₁ ht₁
            exact (ih h₁ ht₁ hrest _).after _
          · rw [if_neg hentry, if_neg hentry]
            exact h.failed _

end FileTree

/-- What a command reads in two trees differs in nothing but bytes: the files
    that are combined or packed have equal lengths, a blob decodes to keys
    of equal lengths, and an archive to files of the same names and
    lengths. -/
inductive FileCommand.Comparable (t t' : FileTree) : FileCommand → Prop where
  | split {blob bootKey rootKey : Path} {bytes bytes' : Bytes} {keys keys' : KeyPair}
      (read : t.readSecret blob = .ok bytes) (read' : t'.readSecret blob = .ok bytes')
      (decode : KeyBlob.decode bytes = .ok keys) (decode' : KeyBlob.decode bytes' = .ok keys')
      (boot : keys.boot.length = keys'.boot.length)
      (root : keys.root.length = keys'.root.length) :
      Comparable t t' (.split blob bootKey rootKey)
  | combine {bootKey rootKey output : Path} (boot : t.SameSize t' bootKey)
      (root : t.SameSize t' rootKey) : Comparable t t' (.combine bootKey rootKey output)
  | extract {archive dir : Path} {bytes bytes' : Bytes} {files files' : List ProvisionFile}
      (read : t.readSecret archive = .ok bytes) (read' : t'.readSecret archive = .ok bytes')
      (decode : Archive.decode bytes = .ok files) (decode' : Archive.decode bytes' = .ok files')
      (names : files.map (·.name) = files'.map (·.name))
      (lengths : files.map (·.payload.length) = files'.map (·.payload.length)) :
      Comparable t t' (.extract archive dir)
  | pack {output : Path} {inputs : List Path} (sizes : ∀ input ∈ inputs, t.SameSize t' input) :
      Comparable t t' (.pack output inputs)

/-- The remark of a command on the total length that its archive declares. -/
def FileCommand.lengthRemarks (t : FileTree) : FileCommand → List LogLine
  | .extract archive _ =>
      match t.readSecret archive with
      | .ok bytes => Archive.lengthRemarks bytes
      | .error _ => []
  | _ => []

namespace FileTree

variable {r : Location → Node → Node → Prop} {t t' : FileTree}

theorem map_profile_eq {files files' : List ProvisionFile}
    (hnames : files.map (·.name) = files'.map (·.name))
    (hlengths : files.map (·.payload.length) = files'.map (·.payload.length)) :
    files.map Archive.profile = files'.map Archive.profile := by
  have hzip : ∀ files : List ProvisionFile, files.map Archive.profile =
      (files.map (·.name)).zip (files.map (·.payload.length)) := by
    intro files
    rw [List.zip_map']
    rfl
  rw [hzip, hzip, hnames, hlengths]

theorem Matches.run (h : t.Matches r t') (hr : Coarse r) (ht : t.WellFormed) (mishaps : Mishaps)
    {command : FileCommand} (hinputs : command.Comparable t t') :
    ∃ o o' : FileOutcome, o.Alike r o' ∧
      command.run t mishaps
        = o.after (commandRemark command.summary :: command.lengthRemarks t) ∧
      command.run t' mishaps
        = o'.after (commandRemark command.summary :: command.lengthRemarks t') := by
  cases hinputs with
  | split read read' decode decode' boot root =>
      exact ⟨_, _, h.split hr ht read read' decode decode' boot root mishaps _ _, rfl, rfl⟩
  | combine boot root => exact ⟨_, _, h.combine hr ht boot root (mishaps 0) _, rfl, rfl⟩
  | @extract archive dir bytes bytes' files files' read read' decode decode' names lengths =>
      have hprofile := map_profile_eq names lengths
      have hcount : files.length = files'.length := by
        simpa only [List.length_map] using congrArg List.length hprofile
      have hentries := Archive.entryRemarks_congr decode decode' hprofile
      refine ⟨_, _, ((h.extractFiles hr ht hprofile mishaps dir).before
        [Archive.releaseRemark files.length]).after (Archive.entryRemarks bytes), ?_, ?_⟩
      · simp [FileCommand.run, FileTree.extract, FileCommand.lengthRemarks, read, decode,
          FileOutcome.after, Archive.remarks]
      · simp [FileCommand.run, FileTree.extract, FileCommand.lengthRemarks, read', decode',
          FileOutcome.after, Archive.remarks, hentries, hcount]
  | pack sizes => exact ⟨_, _, h.pack hr ht sizes (mishaps 0) _, rfl, rfl⟩

/-! ## What becomes of the trees -/

/-- Nodes of one outline, or those that two trees have at a location. -/
def Settled (t t' : FileTree) (loc : Location) (node node' : Node) : Prop :=
  node.outline = node'.outline ∨ (t.node? loc = some node ∧ t'.node? loc = some node')

theorem SameShape.settled (h : t.SameShape t') : t.Matches (Settled t t') t' where
  cwd := h.cwd
  node := by
    intro loc
    have hrel := h.node loc
    cases hnode : t.node? loc with
    | none =>
        cases hnode' : t'.node? loc with
        | none => exact .none
        | some node' =>
            rw [hnode, hnode'] at hrel
            cases hrel
    | some node =>
        cases hnode' : t'.node? loc with
        | none =>
            rw [hnode, hnode'] at hrel
            cases hrel
        | some node' =>
            rw [hnode, hnode'] at hrel
            cases hrel with
            | some hkind => exact .some ⟨hkind, Or.inr ⟨hnode, hnode'⟩⟩

end FileTree

end DiskKeys
