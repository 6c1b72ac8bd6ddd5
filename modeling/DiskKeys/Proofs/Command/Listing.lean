import DiskKeys.Command.Files
import DiskKeys.Proofs.Archive.RoundTrip
import DiskKeys.Proofs.Bytes.Digest
import DiskKeys.Proofs.Text.Decimal
import DiskKeys.Proofs.Text.LineEnds

/-! # What a listing shows

    A listing has three columns: the digest of the payload, its length, and
    the name as it is.  The first two are digits, so the tabs behind them
    are the first two of the row, whatever the name is (`row_injective`).
    But a name may hold line feeds, and then its entry takes more than one
    line, and all but the first of them look as the name would have it
    (`listArchive_shows`, `listing_forged`). -/

namespace DiskKeys.FileTree

variable {files files' : List ProvisionFile}

/-! ## Rows -/

/-- A digest and a length, each with a tab behind it. -/
def columns (digest : Bytes) (length : Nat) : List Char :=
  Hex.encodeChars digest ++ '\t' :: (Nat.toDigits 10 length ++ ['\t'])

/-- The row of a digest, a length and a name. -/
def row : Bytes × Nat × String → List Char
  | (digest, length, name) => columns digest length ++ name.toList

/-- What is to be shown of a file. -/
def shown (f : ProvisionFile) : Bytes × Nat × String :=
  (Digest.sha256 f.payload, f.payload.length, f.name)

theorem not_mem_encodeChars {c : Char} (hc : c ∉ Hex.digits) (bytes : Bytes) :
    c ∉ Hex.encodeChars bytes :=
  fun hmem => hc (Hex.digit_of_mem_encodeChars hmem)

theorem feed_not_mem_columns (digest : Bytes) (length : Nat) : '\n' ∉ columns digest length := by
  have hdigest := not_mem_encodeChars (c := '\n') (by decide) digest
  have hlength := Text.not_mem_toDigits (c := '\n') rfl length
  simp [columns, hdigest, hlength]

/-- There are line feeds in a row only if there are any in the name. -/
theorem feed_mem_row {digest : Bytes} {length : Nat} {name : String} :
    '\n' ∈ row (digest, length, name) ↔ '\n' ∈ name.toList := by
  rw [row, List.mem_append, or_iff_right (feed_not_mem_columns digest length)]

/-- The name begins behind the second tab. -/
theorem row_injective : Function.Injective row := by
  rintro ⟨digest, length, name⟩ ⟨digest', length', name'⟩ h
  have hsplit : ∀ digest length (name : String), row (digest, length, name) =
      Hex.encodeChars digest ++ '\t' :: (Nat.toDigits 10 length ++ '\t' :: name.toList) := by
    intro digest length name
    simp [row, columns]
  have hdigest := not_mem_encodeChars (c := '\t') (by decide)
  have hlength := Text.not_mem_toDigits (c := '\t') rfl
  rw [hsplit, hsplit, Text.append_cons_inj (hdigest digest) (hdigest digest'),
    Text.append_cons_inj (hlength length) (hlength length'), Hex.encodeChars_inj,
    Text.toDigits_inj, String.toList_inj] at h
  obtain ⟨rfl, rfl, rfl⟩ := h
  rfl

/-! ## Listings -/

/-- The rows of files, each with a line feed behind it. -/
def listed (files : List ProvisionFile) : List Char :=
  (files.map fun f => row (shown f)).flatMap (· ++ ['\n'])

theorem toList_listing (f : ProvisionFile) :
    (listing (fun payload => Hex.encode (Digest.sha256 payload)) f).toList
      = row (shown f) ++ ['\n'] := by
  simp [listing, row, columns, shown, Hex.encode, toString]

theorem toList_join_listing (files : List ProvisionFile) :
    (String.join (files.map (listing fun payload => Hex.encode (Digest.sha256 payload)))).toList
      = listed files := by
  rw [String.toList_join, listed, List.flatMap_map, List.flatMap_map]
  exact List.flatMap_congr fun f _ => toList_listing f

/-- An entry takes as many lines as its name has. -/
theorem lines_listed (files : List ProvisionFile) :
    Text.lines (listed files) = (files.flatMap fun f =>
      (Text.lines f.name.toList).modifyHead
        (columns (Digest.sha256 f.payload) f.payload.length ++ ·)) ++ [[]] := by
  rw [listed, Text.lines_flatMap_feed, List.flatMap_map]
  exact congrArg (· ++ [[]]) (List.flatMap_congr fun f _ =>
    Text.lines_append (feed_not_mem_columns _ _) f.name.toList)

theorem lines_listed_eq_iff :
    Text.lines (listed files) = (files.map fun f => row (shown f)) ++ [[]] ↔
      ∀ f ∈ files, '\n' ∉ f.name.toList := by
  rw [listed, Text.lines_flatMap_feed_eq_iff, List.forall_mem_map]
  simp only [shown, feed_mem_row]

/-- Names without line feeds leave no doubt about what is listed. -/
theorem map_shown_eq_of_listed (hclean : ∀ f ∈ files, '\n' ∉ f.name.toList)
    (hclean' : ∀ f ∈ files', '\n' ∉ f.name.toList) (h : listed files = listed files') :
    files.map shown = files'.map shown := by
  have hrows : (files.map fun f => row (shown f)) ++ [[]]
      = (files'.map fun f => row (shown f)) ++ [[]] := by
    rw [← lines_listed_eq_iff.mpr hclean, h, lines_listed_eq_iff.mpr hclean']
  refine (List.map_injective_iff.mpr row_injective) ?_
  rw [List.map_map, List.map_map]
  exact List.append_cancel_right hrows

/-! ## Listing an archive -/

theorem listArchive_of_decode {t : FileTree} {archive : Path} {bytes : Bytes}
    (hread : t.readSecret archive = .ok bytes) (hdecode : Archive.decode bytes = .ok files) :
    t.listArchive archive
      = ⟨.ok (), t, Archive.remarks bytes ++ [Archive.releaseRemark files.length],
          .ofList (listed files)⟩ := by
  rw [listArchive, hread]
  simp only [hdecode]
  rw [← toList_join_listing, String.ofList_toList, FileOutcome.after]

/-- **What a listing shows.**  Listing an archive that is accepted changes
    nothing and prints for each entry in turn the sixty-four digits of the
    digest, the length and the name, with tabs in between and a line feed
    at the end.  The name stands there as it is, so an entry takes as many
    lines as its name has, and the rows are the lines exactly when no name
    holds a line feed.  Two archives of which that is true have the same
    listing only if they agree in all digests, lengths and names. -/
theorem listArchive_shows {t : FileTree} {archive : Path} {bytes : Bytes}
    (hread : t.readSecret archive = .ok bytes) (hdecode : Archive.decode bytes = .ok files) :
    let done := t.listArchive archive
    (done.result = .ok () ∧ done.tree = t ∧
      done.log = Archive.remarks bytes ++ [Archive.releaseRemark files.length]) ∧
    done.stdout.toList = (files.map fun f => row (shown f)).flatMap (· ++ ['\n']) ∧
    (∀ f ∈ files, (Hex.encodeChars (Digest.sha256 f.payload)).length = 64 ∧
      ∀ c ∈ Hex.encodeChars (Digest.sha256 f.payload), c ∈ Hex.digits) ∧
    Text.lines done.stdout.toList = (files.flatMap fun f =>
      (Text.lines f.name.toList).modifyHead
        (columns (Digest.sha256 f.payload) f.payload.length ++ ·)) ++ [[]] ∧
    (Text.lines done.stdout.toList = (files.map fun f => row (shown f)) ++ [[]] ↔
      ∀ f ∈ files, '\n' ∉ f.name.toList) ∧
    ∀ (t' : FileTree) (archive' : Path) (bytes' : Bytes) (files' : List ProvisionFile),
      t'.readSecret archive' = .ok bytes' → Archive.decode bytes' = .ok files' →
      (∀ f ∈ files, '\n' ∉ f.name.toList) → (∀ f ∈ files', '\n' ∉ f.name.toList) →
      (t'.listArchive archive').stdout = done.stdout → files'.map shown = files.map shown := by
  intro done
  have hdone := listArchive_of_decode hread hdecode
  have hstdout : done.stdout.toList = listed files := by
    simp only [done, hdone, String.toList_ofList]
  refine ⟨by simp only [done, hdone, and_self], hstdout, ?_, ?_, ?_, ?_⟩
  · intro f _
    exact ⟨Digest.length_encodeChars_sha256 f.payload, fun c => Hex.digit_of_mem_encodeChars⟩
  · rw [hstdout]
    exact lines_listed files
  · rw [hstdout]
    exact lines_listed_eq_iff
  · intro t' archive' bytes' files' hread' hdecode' hclean hclean' heq
    refine map_shown_eq_of_listed hclean' hclean ?_
    rw [← hstdout, ← heq, listArchive_of_decode hread' hdecode', String.toList_ofList]

/-- One empty file, with a name of two lines.  The second one reads like
    the row of another. -/
def forged : List ProvisionFile :=
  [⟨"a\ne3b0c44298fc1c149afbf4c8996fb92427ae41e4649b934ca495991b7852b855\t0\tb", []⟩]

/-- The two empty files that seem to be there. -/
def plain : List ProvisionFile :=
  [⟨"a", []⟩, ⟨"b", []⟩]

/-- An archive of each. -/
def shelf : FileTree :=
  (empty.put [Text.Utf8.encode "forged"] (.file 0o644 (Archive.archiveBytes forged))).put
    [Text.Utf8.encode "plain"] (.file 0o644 (Archive.archiveBytes plain))

theorem decode_forged : shelf.readSecret (.ofString "forged") = .ok (Archive.archiveBytes forged) ∧
    Archive.decode (Archive.archiveBytes forged) = .ok forged := by
  decide +kernel

theorem decode_plain : shelf.readSecret (.ofString "plain") = .ok (Archive.archiveBytes plain) ∧
    Archive.decode (Archive.archiveBytes plain) = .ok plain := by
  decide +kernel

/-- The two files take a line each, the one file does not. -/
theorem listArchive_shows_shelf :
    Text.lines (shelf.listArchive (.ofString "plain")).stdout.toList
      = (plain.map fun f => row (shown f)) ++ [[]] ∧
    Text.lines (shelf.listArchive (.ofString "forged")).stdout.toList
      ≠ (forged.map fun f => row (shown f)) ++ [[]] := by
  obtain ⟨-, -, -, -, hplain, -⟩ := listArchive_shows decode_plain.1 decode_plain.2
  obtain ⟨-, -, -, -, hforged, -⟩ := listArchive_shows decode_forged.1 decode_forged.2
  refine ⟨hplain.mpr (by decide), ?_⟩
  rw [Ne, hforged]
  decide

theorem listed_forged : listed forged = listed plain := by
  have hdigest : Hex.encodeChars (Digest.sha256 [])
      = "e3b0c44298fc1c149afbf4c8996fb92427ae41e4649b934ca495991b7852b855".toList := by
    decide +kernel
  simp only [listed, forged, plain, shown, row, columns, List.map_cons, List.map_nil, hdigest]
  decide +kernel

/-- An archive of one file is listed as if there were two in it. -/
theorem listing_forged : ∃ bytes bytes' files files',
    shelf.readSecret (.ofString "forged") = .ok bytes ∧ Archive.decode bytes = .ok files ∧
    shelf.readSecret (.ofString "plain") = .ok bytes' ∧ Archive.decode bytes' = .ok files' ∧
    files.length = 1 ∧ files.map shown ≠ files'.map shown ∧
    (shelf.listArchive (.ofString "forged")).stdout
      = (shelf.listArchive (.ofString "plain")).stdout ∧
    Text.lines (shelf.listArchive (.ofString "forged")).stdout.toList
      = (files'.map fun f => row (shown f)) ++ [[]] := by
  obtain ⟨hforged, hforgedFiles⟩ := decode_forged
  obtain ⟨hplain, hplainFiles⟩ := decode_plain
  refine ⟨_, _, forged, plain, hforged, hforgedFiles, hplain, hplainFiles, rfl, ?_, ?_, ?_⟩
  · intro h
    exact absurd (congrArg List.length h) (by decide)
  · rw [listArchive_of_decode hforged hforgedFiles, listArchive_of_decode hplain hplainFiles,
      listed_forged]
  · rw [listArchive_of_decode hforged hforgedFiles, String.toList_ofList, listed_forged]
    exact lines_listed_eq_iff.mpr (by decide)

end DiskKeys.FileTree
