import Mathlib.Data.List.Nodup
import DiskKeys.Proofs.Archive.RoundTrip
import DiskKeys.Proofs.Command.Extract
import DiskKeys.Proofs.Command.Output

/-! # Extracting what was packed

    A pack that succeeds has read all its inputs and written an archive that
    decodes to them, with the names that their paths end in
    (`pack_eq_ok`).  Such a name is a single step of a path and passes the
    check on entries, also when it is handed out as another
    (`isEntryName_expose`).  If no two of the names are the same, no file
    replaces another in the directory, and all of them are there in the end
    (`extractFiles_of_nodup`, `extract_pack`). -/

namespace DiskKeys.FileTree

variable {t : FileTree} {mishap : Option Mishap} {output dir : Path} {inputs : List Path}

/-- The name under which a file that is packed is extracted. -/
def returnedName? (input : Path) : Option String :=
  (input.fileName?.bind Text.Utf8.decode?).map Archive.expose

/-- A file as it comes back if its name is not narrowed. -/
def handedOut (f : ProvisionFile) : ProvisionFile :=
  ⟨Archive.expose f.name, f.payload⟩

/-! ## Packing -/

theorem packed_eq_ok {input : Path} {f : ProvisionFile} :
    t.packed input = .ok f ↔
      input.fileName?.bind Text.Utf8.decode? = some f.name ∧ t.readSecret input = .ok f.payload := by
  unfold packed
  cases hname : input.fileName?.bind Text.Utf8.decode? with
  | none => exact ⟨nofun, nofun⟩
  | some name =>
      simp only [Except.bind_eq_ok, Except.mapError_eq_ok, Except.pure_eq_ok, Except.ok.injEq,
        Option.some.injEq]
      constructor
      · rintro ⟨payload, hread, rfl⟩
        exact ⟨rfl, hread⟩
      · rintro ⟨rfl, hread⟩
        exact ⟨f.payload, hread, rfl⟩

/-- A pack that succeeds has written the archive of its inputs. -/
theorem pack_eq_ok (h : (t.pack mishap output inputs).result = .ok ()) :
    ∃ files, inputs.map t.packed = files.map .ok ∧ (∀ f ∈ files, '\x00' ∉ f.name.toList) ∧
      Archive.totalSize files < UInt32.size ∧
      t.writeSecret mishap output (Archive.archiveBytes files)
        = (.ok (), (t.pack mishap output inputs).tree) := by
  have hdelivers := delivers_pack t mishap output inputs
  rw [h] at hdelivers
  obtain ⟨archive, harchive, hwrite⟩ := hdelivers.exists_writeSecret
  obtain ⟨files, hfiles, hencode⟩ := archiveOf_eq_ok.mp harchive
  obtain ⟨hnul, hsize, rfl⟩ := Archive.encode_eq_ok_iff.mp hencode
  exact ⟨files, hfiles, hnul, hsize, hwrite⟩

/-- Every file that was packed is an input, and every input was packed. -/
theorem exists_input {files : List ProvisionFile} (h : inputs.map t.packed = files.map .ok)
    {f : ProvisionFile} (hf : f ∈ files) : ∃ p ∈ inputs, t.packed p = .ok f :=
  List.mem_map.mp (h ▸ List.mem_map_of_mem hf)

theorem exists_file {files : List ProvisionFile} (h : inputs.map t.packed = files.map .ok)
    {p : Path} (hp : p ∈ inputs) : ∃ f ∈ files, t.packed p = .ok f := by
  obtain ⟨f, hf, heq⟩ := List.mem_map.mp (h ▸ List.mem_map_of_mem hp)
  exact ⟨f, hf, heq.symm⟩

/-! ## Names that come back -/

/-- A name that a path ends in passes the check on entries, whether it is
    handed out as it is or as another. -/
theorem isEntryName_expose {input : Path} {f : ProvisionFile} (h : t.packed input = .ok f)
    (hnul : '\x00' ∉ f.name.toList) : isEntryName (handedOut f).name = true := by
  obtain ⟨hname, -⟩ := packed_eq_ok.mp h
  obtain ⟨bytes, hbytes, hdecode⟩ := Option.bind_eq_some_iff.mp hname
  have hplain := Path.isPlain_of_fileName? hbytes
  rw [← Text.Utf8.encode_of_decode? hdecode] at hplain
  unfold handedOut Archive.expose
  by_cases hhidden : f.name = Archive.hiddenName
  · rw [if_pos hhidden]
    show isEntryName Archive.exposedAs = true
    decide +kernel
  · rw [if_neg hhidden]
    exact isEntryName_iff_isPlain.mpr ⟨hplain, hnul⟩

theorem returnedName?_of_packed {input : Path} {f : ProvisionFile} (h : t.packed input = .ok f) :
    returnedName? input = some (handedOut f).name := by
  rw [returnedName?, (packed_eq_ok.mp h).1]
  rfl

/-- The names of the files that were packed are those of the inputs. -/
theorem map_returnedName? {files : List ProvisionFile}
    (h : inputs.map t.packed = files.map .ok) :
    inputs.map returnedName? = files.map fun f => some (handedOut f).name := by
  induction inputs generalizing files with
  | nil =>
      rw [List.map_eq_nil_iff.mp h.symm]
      rfl
  | cons input rest ih =>
      cases files with
      | nil => exact nomatch h
      | cons f files =>
          rw [List.map_cons, List.map_cons, List.cons.injEq] at h
          rw [List.map_cons, List.map_cons, returnedName?_of_packed h.1, ih h.2]

/-! ## Both commands -/

/-- Files with different names are all there in the end. -/
theorem extractFiles_of_nodup (ht : t.WellFormed) {mishaps : Mishaps}
    {files : List ProvisionFile} (hnodup : (files.map (·.name)).Nodup)
    (hresult : (t.extractFiles mishaps dir files).result = .ok ()) :
    let t' := (t.extractFiles mishaps dir files).tree
    ∃ home,
      (∀ f ∈ files, t'.resolve (dir.join (.ofString f.name))
        = .ok (home ++ [Text.Utf8.encode f.name], .file 0o400 f.payload)) ∧
      ∀ loc, (∀ f ∈ files, loc ≠ home ++ [Text.Utf8.encode f.name]) →
        t'.node? loc = t.node? loc ∨
        (t.node? loc = none ∧ t'.node? loc = some .directory ∧ t'.Passes dir loc) := by
  intro t'
  obtain ⟨written, hrun⟩ := extracted_extractFiles mishaps dir files t
  obtain ⟨home, hhome⟩ := hrun.exists_enters ht
  have hfills := hrun.fills ht hhome
  rw [hrun.written_eq_take, hrun.result_eq_ok_iff.mp hresult, List.take_length] at hfills
  refine ⟨home, ?_, hfills.node⟩
  intro f hf
  obtain ⟨contents, hresolve⟩ := hfills.resolve f hf
  have hfile := file?_eq_some.mpr (node?_of_resolve hresolve)
  rw [hfills.file?, overlay_of_mem hnodup hf] at hfile
  cases hfile
  exact hresolve

/-- Extracting what was packed writes the inputs, as long as no name is
    narrowed. -/
theorem extract_of_pack (ht : t.WellFormed)
    (hlow : ∀ p ∈ inputs, ∀ name, p.fileName?.bind Text.Utf8.decode? = some name →
      ∀ c ∈ name.toList, c.toNat ≤ 0xff)
    (hpack : (t.pack mishap output inputs).result = .ok ()) (mishaps : Mishaps) (dir : Path) :
    let t₁ := (t.pack mishap output inputs).tree
    ∃ files : List ProvisionFile, inputs.map t.packed = files.map .ok ∧
      (∀ f ∈ files, isEntryName (handedOut f).name = true) ∧ t₁.WellFormed ∧
      (t₁.extract mishaps output dir).result
        = (t₁.extractFiles mishaps dir (files.map handedOut)).result ∧
      (t₁.extract mishaps output dir).tree
        = (t₁.extractFiles mishaps dir (files.map handedOut)).tree := by
  intro t₁
  obtain ⟨files, hfiles, hnul, hsize, hwrite⟩ := pack_eq_ok hpack
  obtain ⟨loc, hresolve, -⟩ := changesOnly_of_writeSecret_ok ht hwrite
  have hreturned : files.map Archive.returned = files.map handedOut := by
    refine List.map_congr_left ?_
    intro f hf
    obtain ⟨p, hp, hpacked⟩ := exists_input hfiles hf
    rw [Archive.returned, Archive.narrowed_eq_iff.mpr (hlow p hp _ (packed_eq_ok.mp hpacked).1)]
    rfl
  refine ⟨files, hfiles, ?_, ht.of_writeSecret hwrite, ?_⟩
  · intro f hf
    obtain ⟨p, -, hpacked⟩ := exists_input hfiles hf
    exact isEntryName_expose hpacked (hnul f hf)
  · refine extract_eq_extractFiles mishaps (readSecret_of_resolve hresolve rfl) ?_ dir
    rw [Archive.decode_archiveBytes hnul hsize, hreturned]

/-- **Extracting what was packed.**  If a pack succeeds, all names have only
    characters below U+0100, and no two are extracted under one name, then
    extracting the archive fails only where a file cannot be written.  If
    it succeeds, each input is in the directory as it was packed, under its
    name or the one that is handed out for it, and nothing else has changed
    but for new directories on the way there. -/
theorem extract_pack (ht : t.WellFormed)
    (hlow : ∀ p ∈ inputs, ∀ name, p.fileName?.bind Text.Utf8.decode? = some name →
      ∀ c ∈ name.toList, c.toNat ≤ 0xff)
    (hdistinct : (inputs.map returnedName?).Nodup)
    (hpack : (t.pack mishap output inputs).result = .ok ()) (mishaps : Mishaps) (dir : Path) :
    let t₁ := (t.pack mishap output inputs).tree
    let done := t₁.extract mishaps output dir
    (∀ e, done.result = .error e → ∃ p ∈ inputs, ∃ name contents before n cause,
      returnedName? p = some name ∧ t.readSecret p = .ok contents ∧ e = .keyFile cause ∧
      writeSecret before (mishaps n) (dir.join (.ofString name)) contents
        = (.error cause, done.tree)) ∧
    (done.result = .ok () → ∃ home,
      (∀ p ∈ inputs, ∃ name contents,
        returnedName? p = some name ∧ t.readSecret p = .ok contents ∧
        done.tree.resolve (dir.join (.ofString name))
          = .ok (home ++ [Text.Utf8.encode name], .file 0o400 contents)) ∧
      ∀ loc, (∀ p ∈ inputs, ∀ name, returnedName? p = some name →
          loc ≠ home ++ [Text.Utf8.encode name]) →
        done.tree.node? loc = t₁.node? loc ∨
        (t₁.node? loc = none ∧ done.tree.node? loc = some .directory ∧
          done.tree.Passes dir loc)) := by
  intro t₁ done
  obtain ⟨files, hfiles, hnames, ht₁, hresult, htree⟩ :=
    extract_of_pack ht hlow hpack mishaps dir
  have hnames' : ∀ g ∈ files.map handedOut, isEntryName g.name = true :=
    List.forall_mem_map.mpr hnames
  have hnodup : ((files.map handedOut).map (·.name)).Nodup := by
    rw [map_returnedName? hfiles] at hdistinct
    rw [List.map_map]
    refine List.Nodup.of_map some ?_
    rwa [List.map_map]
  constructor
  · intro e he
    obtain ⟨written, hrun⟩ := extracted_extractFiles mishaps dir (files.map handedOut) t₁
    rw [← hresult, ← htree, he] at hrun
    obtain ⟨g, hg, before, n, cause, hcause, hwrite⟩ := hrun.exists_writeSecret_error hnames'
    obtain ⟨f, hf, rfl⟩ := List.mem_map.mp hg
    obtain ⟨p, hp, hpacked⟩ := exists_input hfiles hf
    exact ⟨p, hp, _, _, before, n, cause, returnedName?_of_packed hpacked,
      (packed_eq_ok.mp hpacked).2, hcause, hwrite⟩
  · intro hdone
    obtain ⟨home, hwritten, hothers⟩ :=
      extractFiles_of_nodup ht₁ hnodup (hresult.symm.trans hdone)
    rw [← htree] at hwritten hothers
    refine ⟨home, ?_, ?_⟩
    · intro p hp
      obtain ⟨f, hf, hpacked⟩ := exists_file hfiles hp
      exact ⟨_, _, returnedName?_of_packed hpacked, (packed_eq_ok.mp hpacked).2,
        hwritten _ (List.mem_map_of_mem hf)⟩
    · intro loc hloc
      refine hothers loc ?_
      intro g hg
      obtain ⟨f, hf, rfl⟩ := List.mem_map.mp hg
      obtain ⟨p, hp, hpacked⟩ := exists_input hfiles hf
      exact hloc p hp _ (returnedName?_of_packed hpacked)

/-- A tree with two files to pack, one of them under the hidden name. -/
def baggage : FileTree :=
  ((empty.put [Text.Utf8.encode "in"] .directory).put
    [Text.Utf8.encode "in", Text.Utf8.encode "unattend.xml"] (.file 0o644 [1, 2])).put
    [Text.Utf8.encode "in", Text.Utf8.encode "wg.key"] (.file 0o600 [3])

/-- Their paths. -/
def bags : List Path :=
  [.ofString "in/unattend.xml", .ofString "in/wg.key"]

/-- Both are there in the end, in a directory that was not there before. -/
theorem extract_pack_baggage :
    ∃ home, ∀ p ∈ bags, ∃ name contents,
      returnedName? p = some name ∧ baggage.readSecret p = .ok contents ∧
      ((baggage.pack none (.ofString "archive") bags).tree.extract (fun _ => none)
          (.ofString "archive") (.ofString "out")).tree.resolve
            ((Path.ofString "out").join (.ofString name))
        = .ok (home ++ [Text.Utf8.encode name], .file 0o400 contents) := by
  have hlow : ∀ p ∈ bags, ∀ name, p.fileName?.bind Text.Utf8.decode? = some name →
      ∀ c ∈ name.toList, c.toNat ≤ 0xff := by
    have hnames : (Path.ofString "in/unattend.xml").fileName?.bind Text.Utf8.decode?
          = some "unattend.xml" ∧
        (Path.ofString "in/wg.key").fileName?.bind Text.Utf8.decode? = some "wg.key" := by
      decide +kernel
    intro p hp name hname
    rcases List.mem_pair.mp hp with rfl | rfl
    · cases hnames.1.symm.trans hname
      simp
    · cases hnames.2.symm.trans hname
      simp
  have ht : baggage.WellFormed := by decide +kernel
  have hpack : (baggage.pack none (.ofString "archive") bags).result = .ok () := by decide +kernel
  obtain ⟨-, hdone⟩ :=
    extract_pack ht hlow (by decide +kernel) hpack (fun _ => none) (.ofString "out")
  obtain ⟨home, hwritten, -⟩ := hdone (by decide +kernel)
  exact ⟨home, hwritten⟩

end DiskKeys.FileTree
