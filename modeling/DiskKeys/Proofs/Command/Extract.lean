import Mathlib.Tactic.IntervalCases
import DiskKeys.Proofs.Archive.Layout
import DiskKeys.Proofs.Command.Output
import DiskKeys.Proofs.Files.Inside
import DiskKeys.Proofs.Text.Utf8

/-! # What extracting an archive changes

    Extracting writes one file after the other, until it gets stuck at a
    name that no file in the directory can have or at a write that fails
    (`Extracted`).  A name that passes the check is a single step
    (`isPlain_of_isEntryName`), however it was stored in the archive.  So
    every write ends in the directory, whichever files came before
    (`Extracted.fills`), and what is new elsewhere are directories on the
    way to it (`extract_fills`). -/

namespace DiskKeys.FileTree

variable {t t' t'' : FileTree} {dir : Path} {home : Location}

/-! ## Names -/

theorem isEntryName_iff {name : String} :
    isEntryName name = true ↔ name ≠ "" ∧ name ≠ "." ∧ name ≠ ".." ∧ '/' ∉ name.toList ∧
      '\x00' ∉ name.toList := by
  simp [isEntryName, and_assoc, forall_and, List.forall_mem_ne']

/-- The names of files that are written are those that are one step of a
    path. -/
theorem isEntryName_iff_isPlain {name : String} :
    isEntryName name = true ↔
      Path.IsPlain (Text.Utf8.encode name) ∧ '\x00' ∉ name.toList := by
  have hbytes : Text.Utf8.encode "" = [] ∧ Text.Utf8.encode "." = Path.here ∧
      Text.Utf8.encode ".." = Path.above := by decide +kernel
  obtain ⟨hnil, hhere, habove⟩ := hbytes
  have hother : ∀ other, name ≠ other ↔ Text.Utf8.encode name ≠ Text.Utf8.encode other :=
    fun other => not_congr Text.Utf8.encode_inj.symm
  have hslash : '/' ∉ name.toList ↔ Path.slash ∉ Text.Utf8.encode name :=
    not_congr (Text.Utf8.mem_encode_iff (c := '/') (by decide) name).symm
  rw [isEntryName_iff, hother, hother, hother, hslash, hnil, hhere, habove]
  constructor
  · rintro ⟨hempty, hdot, hdots, hslash, hnul⟩
    exact ⟨⟨hempty, hslash, hdot, hdots⟩, hnul⟩
  · rintro ⟨⟨hempty, hslash, hdot, hdots⟩, hnul⟩
    exact ⟨hempty, hdot, hdots, hslash, hnul⟩

theorem isPlain_of_isEntryName {name : String} (h : isEntryName name = true) :
    Path.IsPlain (Text.Utf8.encode name) :=
  (isEntryName_iff_isPlain.mp h).1

/-! ## The loop -/

/-- The tree when files have been written into a directory, one after the
    other. -/
def placed (t : FileTree) (mishaps : Mishaps) (dir : Path) : List ProvisionFile → FileTree
  | [] => t
  | f :: rest =>
      placed (t.writeSecret (mishaps 0) (dir.join (.ofString f.name)) f.payload).2 mishaps.later
        dir rest

/-- A file that is not written, for its name or because the write fails. -/
def Stuck (t : FileTree) (mishap : Option Mishap) (dir : Path) (f : ProvisionFile) : Prop :=
  f.name = "" ∨ f.name = "." ∨ f.name = ".." ∨ '/' ∈ f.name.toList ∨ '\x00' ∈ f.name.toList ∨
    (t.writeSecret mishap (dir.join (.ofString f.name)) f.payload).1 ≠ .ok ()

instance (t : FileTree) (mishap : Option Mishap) (dir : Path) (f : ProvisionFile) :
    Decidable (t.Stuck mishap dir f) :=
  inferInstanceAs (Decidable (_ ∨ _ ∨ _ ∨ _ ∨ _ ∨ _))

/-- The files that are written into a directory until one is stuck, and what
    this comes to. -/
inductive Extracted (dir : Path) : Mishaps → FileTree → (files written : List ProvisionFile) →
    Except FileCommandError Unit → FileTree → Prop where
  | finished (mishaps : Mishaps) (t : FileTree) : Extracted dir mishaps t [] [] (.ok ()) t
  | refused (mishaps : Mishaps) {t : FileTree} {f : ProvisionFile} (rest : List ProvisionFile)
      (hname : isEntryName f.name = false) :
      Extracted dir mishaps t (f :: rest) [] (.error (.unusableEntry f.name)) t
  | failed {mishaps : Mishaps} {t t' : FileTree} {f : ProvisionFile} {e : KeyFileError}
      (rest : List ProvisionFile) (hname : isEntryName f.name = true)
      (hwrite : t.writeSecret (mishaps 0) (dir.join (.ofString f.name)) f.payload
        = (.error e, t')) :
      Extracted dir mishaps t (f :: rest) [] (.error (.keyFile e)) t'
  | written {mishaps : Mishaps} {t t' t'' : FileTree} {f : ProvisionFile}
      {rest written : List ProvisionFile} {result : Except FileCommandError Unit}
      (hname : isEntryName f.name = true)
      (hwrite : t.writeSecret (mishaps 0) (dir.join (.ofString f.name)) f.payload = (.ok (), t'))
      (hrest : Extracted dir mishaps.later t' rest written result t'') :
      Extracted dir mishaps t (f :: rest) (f :: written) result t''

theorem extracted_extractFiles (mishaps : Mishaps) (dir : Path) (files : List ProvisionFile)
    (t : FileTree) :
    ∃ written, Extracted dir mishaps t files written (t.extractFiles mishaps dir files).result
      (t.extractFiles mishaps dir files).tree := by
  induction files generalizing mishaps t with
  | nil => exact ⟨[], .finished mishaps t⟩
  | cons f rest ih =>
      unfold extractFiles
      by_cases hname : isEntryName f.name = true
      · rw [if_pos hname]
        obtain ⟨result, t', hwrite⟩ : ∃ result t',
            t.writeSecret (mishaps 0) (dir.join (.ofString f.name)) f.payload = (result, t') :=
          ⟨_, _, rfl⟩
        cases result with
        | error e =>
            simp only [writing_of_error hwrite]
            exact ⟨[], .failed rest hname hwrite⟩
        | ok u =>
            simp only [writing_of_ok hwrite, FileOutcome.result_after, FileOutcome.tree_after]
            obtain ⟨written, hrest⟩ := ih mishaps.later t'
            exact ⟨f :: written, .written hname hwrite hrest⟩
      · rw [if_neg hname]
        exact ⟨[], .refused mishaps rest (by simpa using hname)⟩

namespace Extracted

variable {mishaps : Mishaps} {files written : List ProvisionFile}
  {result : Except FileCommandError Unit}

theorem written_eq_take (h : Extracted dir mishaps t files written result t') :
    written = files.take written.length := by
  induction h with
  | finished mishaps t => rfl
  | refused mishaps rest hname => rfl
  | failed rest hname hwrite => rfl
  | written hname hwrite hrest ih => rw [List.length_cons, List.take_succ_cons, ← ih]

theorem result_eq_ok_iff (h : Extracted dir mishaps t files written result t') :
    result = .ok () ↔ written.length = files.length := by
  induction h with
  | finished mishaps t => simp
  | refused mishaps rest hname => simp
  | failed rest hname hwrite => simp
  | written hname hwrite hrest ih => simpa using ih

/-- The first file that is not written is stuck. -/
theorem stuck (h : Extracted dir mishaps t files written result t') {f : ProvisionFile}
    (hf : files[written.length]? = some f) :
    (t.placed mishaps dir (files.take written.length)).Stuck (mishaps written.length) dir f := by
  induction h with
  | finished mishaps t => exact nomatch hf
  | refused mishaps rest hname =>
      cases hf
      by_contra hstuck
      simp only [Stuck, not_or] at hstuck
      obtain ⟨hempty, hdot, hdots, hslash, hnul, -⟩ := hstuck
      rw [isEntryName_iff.mpr ⟨hempty, hdot, hdots, hslash, hnul⟩] at hname
      exact nomatch hname
  | @failed mishaps t t' f' e rest hname hwrite =>
      cases hf
      refine Or.inr (Or.inr (Or.inr (Or.inr (Or.inr ?_))))
      rw [List.length_nil, List.take_zero, placed, hwrite]
      exact nofun
  | written hname hwrite hrest ih =>
      have hstuck := ih hf
      rwa [List.length_cons, List.take_succ_cons, placed, hwrite]

end Extracted

/-! ## What is changed -/

/-- The files when some have been put into a directory, one after the
    other. -/
def overlay (home : Location) (files : List ProvisionFile)
    (old : Location → Option (Nat × Bytes)) : Location → Option (Nat × Bytes) :=
  files.foldl
    (fun now f => Function.update now (home ++ [Text.Utf8.encode f.name]) (some (0o400, f.payload)))
    old

theorem overlay_cons (home : Location) (f : ProvisionFile) (rest : List ProvisionFile)
    (old : Location → Option (Nat × Bytes)) :
    overlay home (f :: rest) old = overlay home rest (Function.update old
      (home ++ [Text.Utf8.encode f.name]) (some (secretMode, f.payload))) :=
  rfl

/-- A secret that is there is replaced by secrets only. -/
theorem overlay_eq_some (home : Location) {loc : Location} (files : List ProvisionFile)
    {old : Location → Option (Nat × Bytes)} {contents : Bytes}
    (h : old loc = some (secretMode, contents)) :
    ∃ contents', overlay home files old loc = some (secretMode, contents') := by
  induction files generalizing old contents with
  | nil => exact ⟨contents, h⟩
  | cons f rest ih =>
      rw [overlay_cons]
      by_cases hloc : loc = home ++ [Text.Utf8.encode f.name]
      · subst hloc
        exact ih (Function.update_self _ _ _)
      · rw [← Function.update_of_ne hloc (some (secretMode, f.payload)) old] at h
        exact ih h

theorem overlay_of_ne {loc : Location} (files : List ProvisionFile)
    (old : Location → Option (Nat × Bytes))
    (h : ∀ f ∈ files, loc ≠ home ++ [Text.Utf8.encode f.name]) :
    overlay home files old loc = old loc := by
  induction files generalizing old with
  | nil => rfl
  | cons f rest ih =>
      rw [overlay_cons, ih _ fun g hg => h g (List.mem_cons_of_mem f hg),
        Function.update_of_ne (h f List.mem_cons_self)]

/-- Of files with different names none replaces another. -/
theorem overlay_of_mem {files : List ProvisionFile} (hnames : (files.map (·.name)).Nodup)
    {f : ProvisionFile} (hf : f ∈ files) (old : Location → Option (Nat × Bytes)) :
    overlay home files old (home ++ [Text.Utf8.encode f.name])
      = some (secretMode, f.payload) := by
  induction files generalizing old with
  | nil => exact absurd hf List.not_mem_nil
  | cons g rest ih =>
      rw [List.map_cons, List.nodup_cons] at hnames
      rw [overlay_cons]
      rcases List.mem_cons.mp hf with rfl | hmem
      · rw [overlay_of_ne, Function.update_self]
        intro g hg heq
        have hname : f.name = g.name := by simpa [Text.Utf8.encode_inj] using heq
        exact hnames.1 (hname ▸ List.mem_map_of_mem hg)
      · exact ih hnames.2 hmem _

/-- All that changes when files are written into a directory: the files
    themselves, each of which its path leads to, and directories on the
    way. -/
structure Fills (t : FileTree) (dir : Path) (home : Location) (files : List ProvisionFile)
    (t' : FileTree) : Prop where
  keeps : t.Keeps t'
  file? : t'.file? = overlay home files t.file?
  node : ∀ loc, (∀ f ∈ files, loc ≠ home ++ [Text.Utf8.encode f.name]) →
    t'.node? loc = t.node? loc ∨
    (t.node? loc = none ∧ t'.node? loc = some .directory ∧ t'.Passes dir loc)
  resolve : ∀ f ∈ files, ∃ contents, t'.resolve (dir.join (.ofString f.name))
    = .ok (home ++ [Text.Utf8.encode f.name], .file 0o400 contents)

/-- Where a write changes nothing but a place, it adds directories on the way
    to the directory. -/
theorem passes_of_changesOnly {name : Name} (hname : Path.IsPlain name) {places : List Location}
    (h : t.ChangesOnly places (homesOf (dir.join ⟨name⟩)) t') {loc : Location}
    (hloc : loc ∉ places) : t'.node? loc = t.node? loc ∨
      (t.node? loc = none ∧ t'.node? loc = some .directory ∧ t'.Passes dir loc) := by
  rcases h.node loc hloc with hsame | ⟨hnone, hnew, p, hp, hresolve⟩
  · exact Or.inl hsame
  · exact Or.inr ⟨hnone, hnew, passes_of_mem_homesOf hname hp hresolve⟩

theorem Keeps.passes (h : t.Keeps t') {loc : Location} (hdir : t.node? loc = some .directory)
    (hpasses : t.Passes dir loc) : t'.Passes dir loc := by
  obtain ⟨steps, hprefix, hwalk⟩ := hpasses
  refine ⟨steps, hprefix, ?_⟩
  rw [h.origin (directory_of_walk hwalk (Or.inr hdir))]
  exact h.walk hwalk (by rw [h.directory loc hdir]; exact Option.some_ne_none _)

namespace Fills

variable {f : ProvisionFile} {rest : List ProvisionFile}

protected theorem nil (t : FileTree) (dir : Path) (home : Location) : t.Fills dir home [] t where
  keeps := .refl t
  file? := rfl
  node := fun _ _ => Or.inl rfl
  resolve := nofun

/-- A write that fails fills in no file. -/
theorem of_error (home : Location) (hname : isEntryName f.name = true) {mishap : Option Mishap}
    {e : KeyFileError}
    (hwrite : t.writeSecret mishap (dir.join (.ofString f.name)) f.payload = (.error e, t')) :
    t.Fills dir home [] t' := by
  have hchanges := changesOnly_of_writeSecret_error hwrite
  exact
    { keeps := hchanges.keeps
      file? := funext fun loc => hchanges.file?_eq List.not_mem_nil
      node := fun loc _ =>
        passes_of_changesOnly (isPlain_of_isEntryName hname) hchanges List.not_mem_nil
      resolve := nofun }

/-- A file is written before the others, which may replace it. -/
theorem cons (ht : t.WellFormed) (hname : isEntryName f.name = true) {mishap : Option Mishap}
    (hwrite : t.writeSecret mishap (dir.join (.ofString f.name)) f.payload = (.ok (), t'))
    (henters : t''.Enters dir home) (hrest : t'.Fills dir home rest t'') :
    t.Fills dir home (f :: rest) t'' := by
  obtain ⟨home', henters', hresolve, hchanges⟩ :=
    inside_of_writeSecret_ok ht (isPlain_of_isEntryName hname) hwrite
  -- the path leads to the same directory all along
  obtain rfl : home' = home := (hrest.keeps.enters henters').unique henters
  have hfile := file?_of_writeSecret_ok hresolve hchanges
  refine ⟨hchanges.keeps.trans hrest.keeps, ?_, ?_, ?_⟩
  · rw [hrest.file?, hfile, overlay_cons]
  · intro loc hloc
    have hfirst := passes_of_changesOnly (isPlain_of_isEntryName hname) hchanges
      (by simpa using hloc f List.mem_cons_self)
    rcases hrest.node loc fun f' hf' => hloc f' (List.mem_cons_of_mem f hf') with
      hsame' | ⟨hnone', hnew'⟩
    · rcases hfirst with hsame | ⟨hnone, hdir, hpasses⟩
      · exact Or.inl (hsame'.trans hsame)
      · exact Or.inr ⟨hnone, hsame'.trans hdir, hrest.keeps.passes hdir hpasses⟩
    · rcases hfirst with hsame | ⟨-, hdir, -⟩
      · exact Or.inr ⟨hsame.symm.trans hnone', hnew'⟩
      · exact nomatch hdir.symm.trans hnone'
  · intro f' hf'
    rcases List.mem_cons.mp hf' with rfl | hmem
    · obtain ⟨contents, hnow⟩ := overlay_eq_some home' rest
        (file?_eq_some.mpr (node?_of_resolve hresolve))
      rw [← hrest.file?] at hnow
      exact ⟨contents, hrest.keeps.resolve_file hresolve (file?_eq_some.mp hnow)⟩
    · exact hrest.resolve f' hmem

end Fills

namespace Extracted

variable {mishaps : Mishaps} {files written : List ProvisionFile}
  {result : Except FileCommandError Unit}

/-- Files with good names fail to be written only where a write fails. -/
theorem exists_writeSecret_error {e : FileCommandError}
    (h : Extracted dir mishaps t files written (.error e) t')
    (hnames : ∀ f ∈ files, isEntryName f.name = true) :
    ∃ f ∈ files, ∃ (before : FileTree) (n : Nat) (cause : KeyFileError), e = .keyFile cause ∧
      before.writeSecret (mishaps n) (dir.join (.ofString f.name)) f.payload
        = (.error cause, t') := by
  generalize hresult : (Except.error e : Except FileCommandError Unit) = result at h
  induction h with
  | finished mishaps t => exact nomatch hresult
  | refused mishaps rest hname => exact nomatch hname.symm.trans (hnames _ List.mem_cons_self)
  | @failed mishaps t t' f cause rest hname hwrite =>
      cases hresult
      exact ⟨f, List.mem_cons_self, t, 0, cause, rfl, hwrite⟩
  | @written mishaps t t' t'' f rest written result hname hwrite hrest ih =>
      obtain ⟨g, hg, before, n, cause, hfailed⟩ :=
        ih (fun g hg => hnames g (List.mem_cons_of_mem f hg)) hresult
      exact ⟨g, List.mem_cons_of_mem f hg, before, n + 1, cause, hfailed⟩

theorem keeps (h : Extracted dir mishaps t files written result t') (ht : t.WellFormed) :
    t.Keeps t' := by
  induction h with
  | finished mishaps t => exact .refl t
  | refused mishaps rest hname => exact .refl _
  | failed rest hname hwrite => exact (changesOnly_of_writeSecret_error hwrite).keeps
  | @written mishaps t t' t'' f rest written result hname hwrite hrest ih =>
      obtain ⟨loc, -, hchanges⟩ := changesOnly_of_writeSecret_ok ht hwrite
      exact hchanges.keeps.trans (ih (ht.of_writeSecret hwrite))

/-- A directory that something was written into is there. -/
theorem exists_enters (h : Extracted dir mishaps t files written result t') (ht : t.WellFormed) :
    ∃ home, written ≠ [] → t'.Enters dir home := by
  cases h with
  | finished mishaps => exact ⟨[], fun hne => absurd rfl hne⟩
  | refused mishaps rest hname => exact ⟨[], fun hne => absurd rfl hne⟩
  | failed rest hname hwrite => exact ⟨[], fun hne => absurd rfl hne⟩
  | @written _ _ t' _ f rest written _ hname hwrite hrest =>
      obtain ⟨home, henters, -⟩ :=
        inside_of_writeSecret_ok ht (isPlain_of_isEntryName hname) hwrite
      exact ⟨home, fun _ => (hrest.keeps (ht.of_writeSecret hwrite)).enters henters⟩

theorem fills (h : Extracted dir mishaps t files written result t') (ht : t.WellFormed)
    (hhome : written ≠ [] → t'.Enters dir home) : t.Fills dir home written t' := by
  induction h with
  | finished mishaps t => exact .nil t dir home
  | refused mishaps rest hname => exact .nil _ dir home
  | failed rest hname hwrite => exact .of_error home hname hwrite
  | @written mishaps t t' t'' f rest written result hname hwrite hrest ih =>
      have henters := hhome (List.cons_ne_nil _ _)
      exact .cons ht hname hwrite henters (ih (ht.of_writeSecret hwrite) fun _ => henters)

end Extracted

/-! ## The command -/

/-- Besides what it logs, extracting an archive comes to writing its files. -/
theorem extract_eq_extractFiles (mishaps : Mishaps) {archive : Path} {bytes : Bytes}
    {files : List ProvisionFile} (hread : t.readSecret archive = .ok bytes)
    (hdecode : Archive.decode bytes = .ok files) (dir : Path) :
    (t.extract mishaps archive dir).result = (t.extractFiles mishaps dir files).result ∧
      (t.extract mishaps archive dir).tree = (t.extractFiles mishaps dir files).tree := by
  simp only [extract, hread, hdecode, FileOutcome.result_after, FileOutcome.tree_after,
    FileOutcome.result_before, FileOutcome.tree_before, and_self]

end DiskKeys.FileTree
