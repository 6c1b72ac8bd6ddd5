import Mathlib.Order.Monotone.Basic
import DiskKeys.Proofs.KeyBlob.NormalForm

/-! # The first fault of a blob

    What a blob has to meet is laid out as a list of checks in the order in
    which its bytes are read, each with the refusal of a blob that fails it
    (`checks`).  They speak of places alone: where an entry starts, what its
    tag and its size are there.  Decoding passes through the same checks,
    and the places for the keys hold what the entries read so far have put
    there (`Holds`), so its outcome is the refusal of the first check that
    fails, or the keys if none does (`decode_eq_judge`).

    A blob with two faults is therefore blamed for the one that is met first
    in reading, and one that is cut off is blamed for just that
    (`judge_of_cut`). -/

namespace DiskKeys

namespace KeyKind

theorem tag_inj {kind kind' : KeyKind} : kind.tag = kind'.tag ↔ kind = kind' := by
  cases kind with
  | boot =>
      cases kind' with
      | boot => exact ⟨fun _ => rfl, fun _ => rfl⟩
      | root => exact ⟨fun h => absurd h (by decide), nofun⟩
  | root =>
      cases kind' with
      | boot => exact ⟨fun h => absurd h (by decide), nofun⟩
      | root => exact ⟨fun _ => rfl, fun _ => rfl⟩

/-- Two tags stand for a kind. -/
theorem exists_ofTag {tag : UInt16} (h : tag = 1 ∨ tag = 2) :
    ∃ kind, ofTag tag = .ok kind ∧ tag = kind.tag := by
  rcases h with rfl | rfl
  · exact ⟨.boot, rfl, rfl⟩
  · exact ⟨.root, rfl, rfl⟩

theorem ofTag_eq_error {tag : UInt16} (h : ¬ (tag = 1 ∨ tag = 2)) :
    ofTag tag = .error (.unknownTag tag) := by
  obtain ⟨hboot, hroot⟩ := not_or.mp h
  rw [ofTag, if_neg hboot, if_neg hroot]

end KeyKind

namespace KeyBlob

/-! ## Entries in place -/

/-- The number of entries that a blob declares. -/
def countOf (blob : Bytes) : UInt16 :=
  .ofNat (numberAt blob 2 0)

/-- Where an entry starts: the first behind the count, and every other
    where the one before it ends. -/
def entryStart (blob : Bytes) : Nat → Nat
  | 0 => 2
  | i + 1 => entryStart blob i + 4 + numberAt blob 2 (entryStart blob i + 2)

/-- The tag of an entry. -/
def tagOf (blob : Bytes) (i : Nat) : UInt16 :=
  .ofNat (numberAt blob 2 (entryStart blob i))

/-- The size that an entry declares. -/
def keySize (blob : Bytes) (i : Nat) : Nat :=
  numberAt blob 2 (entryStart blob i + 2)

/-- The key of an entry. -/
def keyOf (blob : Bytes) (i : Nat) : Bytes :=
  part blob (entryStart blob i + 4) (keySize blob i)

/-- The keys of two entries, by the tag of the first. -/
def keysIn (blob : Bytes) : KeyPair :=
  if tagOf blob 0 = 1 then ⟨keyOf blob 0, keyOf blob 1⟩
  else ⟨keyOf blob 1, keyOf blob 0⟩

theorem entryStart_succ (blob : Bytes) (i : Nat) :
    entryStart blob (i + 1) = entryStart blob i + 4 + keySize blob i := rfl

theorem entryStart_mono (blob : Bytes) {i j : Nat} (h : i ≤ j) :
    entryStart blob i ≤ entryStart blob j := by
  refine monotone_nat_of_le_succ ?_ h
  intro n
  rw [entryStart_succ, Nat.add_assoc]
  exact Nat.le_add_right _ _

/-! ## Checks -/

/-- What is checked while a blob is read. -/
inductive Check where
  /-- The bytes of the count are there. -/
  | countThere
  /-- There are two entries. -/
  | countValid
  /-- The tag and the size of an entry are there. -/
  | headerThere (i : Nat)
  /-- The tag of an entry stands for a kind. -/
  | tagKnown (i : Nat)
  /-- As many bytes as an entry declares are there. -/
  | keyThere (i : Nat)
  /-- No entry before has the same tag. -/
  | placeFree (i : Nat)
  deriving DecidableEq

/-- A blob meets a check. -/
def Check.Met (blob : Bytes) : Check → Prop
  | .countThere => 2 ≤ blob.length
  | .countValid => countOf blob = 2
  | .headerThere i => entryStart blob i + 4 ≤ blob.length
  | .tagKnown i => tagOf blob i = 1 ∨ tagOf blob i = 2
  | .keyThere i => entryStart blob i + 4 + keySize blob i ≤ blob.length
  | .placeFree i => ∀ j < i, tagOf blob j ≠ tagOf blob i

instance (blob : Bytes) : (check : Check) → Decidable (check.Met blob)
  | .countThere => inferInstanceAs (Decidable (2 ≤ blob.length))
  | .countValid => inferInstanceAs (Decidable (countOf blob = 2))
  | .headerThere i => inferInstanceAs (Decidable (entryStart blob i + 4 ≤ blob.length))
  | .tagKnown i => inferInstanceAs (Decidable (tagOf blob i = 1 ∨ tagOf blob i = 2))
  | .keyThere i =>
      inferInstanceAs (Decidable (entryStart blob i + 4 + keySize blob i ≤ blob.length))
  | .placeFree i => inferInstanceAs (Decidable (∀ j < i, tagOf blob j ≠ tagOf blob i))

/-- Bytes are missing from a place on. -/
def missing (blob : Bytes) (p needed : Nat) : KeyBlobError :=
  .truncated (.underflow p needed (blob.length - p))

/-- The refusal of a blob that fails a check.  Of a header that is not there
    the tag may be. -/
def Check.fault (blob : Bytes) : Check → KeyBlobError
  | .countThere => missing blob 0 2
  | .countValid => .invalidCount (countOf blob)
  | .headerThere i =>
      if entryStart blob i + 2 ≤ blob.length then missing blob (entryStart blob i + 2) 2
      else missing blob (entryStart blob i) 2
  | .tagKnown i => .unknownTag (tagOf blob i)
  | .keyThere i => missing blob (entryStart blob i + 4) (keySize blob i)
  | .placeFree i => .duplicateKey (if tagOf blob i = 1 then .boot else .root)

/-- The checks on one entry. -/
def entryChecks (i : Nat) : List Check :=
  [.headerThere i, .tagKnown i, .keyThere i, .placeFree i]

/-- The checks on a number of entries, the first of which has the given
    index. -/
def entriesChecks (i : Nat) : (count : Nat) → List Check
  | 0 => []
  | count + 1 => entryChecks i ++ entriesChecks (i + 1) count

/-- All checks on a blob, in the order in which it is read. -/
def checks : List Check :=
  [.countThere, .countValid] ++ entriesChecks 0 2

/-- What checks in a row come to: the refusal of the first that fails. -/
def judge (blob : Bytes) (checks : List Check) : Except KeyBlobError Unit :=
  match checks.find? fun check => ¬ check.Met blob with
  | some check => .error (check.fault blob)
  | none => .ok ()

section Judge

variable {blob : Bytes}

theorem judge_of_met (check : Check) (h : check.Met blob) (rest : List Check) :
    judge blob (check :: rest) = judge blob rest := by
  rw [judge, List.find?_cons_of_neg (by simpa using h)]
  rfl

theorem judge_of_not_met (check : Check) (h : ¬ check.Met blob) (rest : List Check) :
    judge blob (check :: rest) = .error (check.fault blob) := by
  rw [judge, List.find?_cons_of_pos (by simpa using h)]

/-- Checks are passed one after the other. -/
theorem judge_append (blob : Bytes) (front back : List Check) :
    judge blob (front ++ back) = judge blob front >>= fun _ => judge blob back := by
  induction front with
  | nil => rfl
  | cons check front ih =>
      rw [List.cons_append]
      by_cases h : check.Met blob
      · rw [judge_of_met _ h, judge_of_met _ h, ih]
      · rw [judge_of_not_met _ h, judge_of_not_met _ h]
        rfl

theorem judge_eq_ok_iff {checks : List Check} :
    judge blob checks = .ok () ↔ ∀ check ∈ checks, check.Met blob := by
  induction checks with
  | nil => exact ⟨fun _ => nofun, fun _ => rfl⟩
  | cons check rest ih =>
      rw [List.forall_mem_cons]
      by_cases h : check.Met blob
      · rw [judge_of_met _ h, ih]
        exact ⟨fun hrest => ⟨h, hrest⟩, fun hall => hall.2⟩
      · rw [judge_of_not_met _ h]
        exact ⟨nofun, fun hall => absurd hall.1 h⟩

/-- A refusal is that of a check which fails. -/
theorem exists_of_judge_eq_error {checks : List Check} {e : KeyBlobError}
    (h : judge blob checks = .error e) :
    ∃ check ∈ checks, ¬ check.Met blob ∧ e = check.fault blob := by
  unfold judge at h
  cases hfind : checks.find? fun check => ¬ check.Met blob with
  | none =>
      rw [hfind] at h
      exact nomatch h
  | some check =>
      rw [hfind] at h
      cases h
      exact ⟨check, List.mem_of_find?_eq_some hfind, by simpa using List.find?_some hfind, rfl⟩

end Judge

/-! ## Reading -/

/-- Places hold the keys of the first entries, each in the place of its
    kind. -/
def Holds (blob : Bytes) (i : Nat) (p : Places) : Prop :=
  ∀ kind key, p.get kind = some key ↔ ∃ j < i, tagOf blob j = kind.tag ∧ key = keyOf blob j

theorem kind_of_tag (kind : KeyKind) :
    (if kind.tag = 1 then .boot else .root) = kind := by
  cases kind with
  | boot => rfl
  | root => rfl

theorem exists_fill {p : Places} {kind : KeyKind} (h : p.get kind = none) (key : Bytes) :
    ∃ p', p.fill kind key = .ok p' := by
  unfold Places.fill
  rw [if_neg (by rw [h]; exact nofun)]
  cases kind with
  | boot => exact ⟨_, rfl⟩
  | root => exact ⟨_, rfl⟩

section Read

variable {blob : Bytes} {i : Nat} {p : Places}

/-- Reading an entry checks it for all but its place. -/
theorem readEntry_alike (hstart : entryStart blob i ≤ blob.length) :
    (judge blob [.headerThere i, .tagKnown i, .keyThere i]).Alike
      (fun _ entry => entryStart blob (i + 1) ≤ blob.length ∧ ∃ kind, tagOf blob i = kind.tag ∧
        entry = (kind, keyOf blob i, .after blob (entryStart blob (i + 1))))
      (readEntry (.after blob (entryStart blob i))) := by
  by_cases hfirst : entryStart blob i + 2 ≤ blob.length
  · by_cases hheader : entryStart blob i + 4 ≤ blob.length
    · have hsecond : entryStart blob i + 2 + 2 ≤ blob.length := hheader
      have hsize : (UInt16.ofNat (numberAt blob 2 (entryStart blob i + 2))).toNat
          = keySize blob i := UInt16.toNat_ofNat_of_lt' (numberAt_lt blob 2 _)
      rw [judge_of_met (.headerThere i) hheader]
      simp only [readEntry, Cursor.readU16_after hstart, if_pos hfirst, Except.mapError_ok,
        Except.ok_bind, Cursor.readU16_after hfirst, if_pos hsecond, hsize]
      show Except.Alike _ _ (KeyKind.ofTag (tagOf blob i) >>= _)
      by_cases htag : tagOf blob i = 1 ∨ tagOf blob i = 2
      · obtain ⟨kind, hkind, hkindTag⟩ := KeyKind.exists_ofTag htag
        rw [judge_of_met (.tagKnown i) htag, hkind, Except.ok_bind,
          Cursor.take_after hsecond]
        by_cases hkey : entryStart blob i + 4 + keySize blob i ≤ blob.length
        · rw [judge_of_met (.keyThere i) hkey, if_pos hkey]
          exact .ok ⟨hkey, kind, hkindTag, rfl⟩
        · rw [judge_of_not_met (.keyThere i) hkey, if_neg hkey]
          exact .error _
      · rw [judge_of_not_met (.tagKnown i) htag, KeyKind.ofTag_eq_error htag]
        exact .error _
    · rw [judge_of_not_met (.headerThere i) hheader, Check.fault, if_pos hfirst]
      simp only [readEntry, Cursor.readU16_after hstart, if_pos hfirst, Except.mapError_ok,
        Except.ok_bind, Cursor.readU16_after hfirst]
      rw [if_neg hheader]
      exact .error _
  · have hheader : ¬ entryStart blob i + 4 ≤ blob.length := by omega
    rw [judge_of_not_met (.headerThere i) hheader, Check.fault, if_neg hfirst, readEntry,
      Cursor.readU16_after hstart, if_neg hfirst]
    exact .error _

/-- A key is put into its place if the place is free. -/
theorem fill_alike (hp : Holds blob i p) {kind : KeyKind} (hkind : tagOf blob i = kind.tag) :
    (judge blob [.placeFree i]).Alike (fun _ p' => Holds blob (i + 1) p')
      (p.fill kind (keyOf blob i)) := by
  by_cases hfree : ∀ j < i, tagOf blob j ≠ tagOf blob i
  · have hnone : p.get kind = none := by
      rw [Option.eq_none_iff_forall_ne_some]
      intro key hkey
      obtain ⟨j, hj, htag, -⟩ := (hp kind key).mp hkey
      exact hfree j hj (htag.trans hkind.symm)
    obtain ⟨p', hfill⟩ := exists_fill hnone (keyOf blob i)
    obtain ⟨-, hself, hother⟩ := fill_eq_ok hfill
    rw [judge_of_met (.placeFree i) hfree, hfill]
    refine .ok ?_
    intro kind' key
    by_cases hsame : kind' = kind
    · subst hsame
      rw [hself]
      constructor
      · intro h
        exact ⟨i, Nat.lt_succ_self i, hkind, (Option.some.inj h).symm⟩
      · rintro ⟨j, hj, htag, rfl⟩
        rcases Nat.lt_succ_iff_lt_or_eq.mp hj with hlt | rfl
        · exact absurd (htag.trans hkind.symm) (hfree j hlt)
        · rfl
    · have hotherKind := KeyKind.eq_other_of_ne hsame
      rw [hotherKind, hother, hp, ← hotherKind]
      constructor
      · rintro ⟨j, hj, hentry⟩
        exact ⟨j, Nat.lt_succ_of_lt hj, hentry⟩
      · rintro ⟨j, hj, htag, hkey⟩
        rcases Nat.lt_succ_iff_lt_or_eq.mp hj with hlt | rfl
        · exact ⟨j, hlt, htag, hkey⟩
        · exact absurd (KeyKind.tag_inj.mp (htag.symm.trans hkind)) hsame
  · have htaken : (p.get kind).isSome = true := by
      obtain ⟨j, hj, htag⟩ : ∃ j < i, tagOf blob j = tagOf blob i := by
        simpa using hfree
      rw [(hp kind (keyOf blob j)).mpr ⟨j, hj, htag.trans hkind, rfl⟩]
      rfl
    unfold Places.fill
    rw [judge_of_not_met (.placeFree i) hfree, if_pos htaken, Check.fault, hkind,
      kind_of_tag]
    exact .error _

/-- Entries in a row are read as they are judged, and places that hold the
    keys of the entries before hold theirs too in the end. -/
theorem readEntries_alike (count : Nat) (hp : Holds blob i p)
    (hstart : entryStart blob i ≤ blob.length) :
    (judge blob (entriesChecks i count)).Alike (fun _ p' => Holds blob (i + count) p')
      (readEntries count p (.after blob (entryStart blob i))) := by
  induction count generalizing i p with
  | zero => exact .ok hp
  | succ count ih =>
      show (judge blob ([.headerThere i, .tagKnown i, .keyThere i]
        ++ ([.placeFree i] ++ entriesChecks (i + 1) count))).Alike _ _
      rw [judge_append, judge_append]
      refine (readEntry_alike hstart).bind ?_
      rintro _ _ ⟨hnext, kind, hkind, rfl⟩
      refine (fill_alike hp hkind).bind ?_
      intro _ p' hp'
      rw [Nat.add_comm count, ← Nat.add_assoc]
      exact ih hp' hnext

end Read

/-- At first no place holds a key. -/
theorem holds_zero (blob : Bytes) : Holds blob 0 ⟨none, none⟩ := by
  intro kind key
  constructor
  · intro h
    cases kind with
    | boot => exact nomatch h
    | root => exact nomatch h
  · rintro ⟨j, hj, -⟩
    exact absurd hj (Nat.not_lt_zero j)

/-- Two entries of different kinds leave both places filled. -/
theorem complete_of_holds {blob : Bytes} {p : Places} (hp : Holds blob 2 p)
    (hfirst : tagOf blob 0 = 1 ∨ tagOf blob 0 = 2) (hsecond : tagOf blob 1 = 1 ∨ tagOf blob 1 = 2)
    (hne : tagOf blob 0 ≠ tagOf blob 1) : p.complete = .ok (keysIn blob) := by
  obtain ⟨boot, root⟩ := p
  rcases hfirst with hboot | hroot
  · have hroot : tagOf blob 1 = 2 := hsecond.resolve_left fun h => hne (hboot.trans h.symm)
    obtain rfl : boot = some (keyOf blob 0) := (hp .boot _).mpr ⟨0, by decide, hboot, rfl⟩
    obtain rfl : root = some (keyOf blob 1) := (hp .root _).mpr ⟨1, by decide, hroot, rfl⟩
    rw [keysIn, if_pos hboot]
    rfl
  · have hboot : tagOf blob 1 = 1 := hsecond.resolve_right fun h => hne (hroot.trans h.symm)
    obtain rfl : boot = some (keyOf blob 1) := (hp .boot _).mpr ⟨1, by decide, hboot, rfl⟩
    obtain rfl : root = some (keyOf blob 0) := (hp .root _).mpr ⟨0, by decide, hroot, rfl⟩
    rw [keysIn, if_neg (by rw [hroot]; decide)]
    rfl

/-- A blob is decoded to the refusal of the first check that it fails, or
    else to its keys. -/
theorem decode_eq_judge (blob : Bytes) :
    decode blob = (judge blob checks).map fun _ => keysIn blob := by
  have hcountOf : (Cursor.ofBytes blob).readU16
      = if 0 + 2 ≤ blob.length then .ok (countOf blob, .after blob (0 + 2))
        else .error (.underflow 0 2 (blob.length - 0)) := Cursor.readU16_after (Nat.zero_le _)
  have hchecks : judge blob checks
      = judge blob [.countThere, .countValid] >>= fun _ => judge blob (entriesChecks 0 2) :=
    judge_append blob _ _
  rw [decode, hcountOf, hchecks]
  by_cases hthere : 2 ≤ blob.length
  · rw [judge_of_met .countThere hthere, if_pos (by omega), Except.mapError_ok,
      Except.ok_bind]
    by_cases hvalid : countOf blob = 2
    · rw [judge_of_met .countValid hvalid]
      show (if countOf blob ≠ 2 then _ else readEntries (countOf blob).toNat ⟨none, none⟩
        (.after blob (entryStart blob 0)) >>= Places.complete)
          = (judge blob (entriesChecks 0 2)).map _
      rw [if_neg (not_not.mpr hvalid), hvalid]
      show readEntries 2 ⟨none, none⟩ (.after blob (entryStart blob 0)) >>= Places.complete = _
      rcases (readEntries_alike 2 (holds_zero blob) hthere).outcomes with
        ⟨e, hjudge, hread⟩ | ⟨_, p, hjudge, hread, hp⟩
      · rw [hjudge, hread]
        rfl
      · have hmet := judge_eq_ok_iff.mp hjudge
        rw [hjudge, hread, Except.ok_bind]
        exact complete_of_holds hp (hmet (.tagKnown 0) (by decide))
          (hmet (.tagKnown 1) (by decide)) (hmet (.placeFree 1) (by decide) 0 (by decide))
    · rw [judge_of_not_met .countValid hvalid]
      show (if countOf blob ≠ 2 then _ else _) = _
      rw [if_pos hvalid]
      rfl
  · rw [judge_of_not_met .countThere hthere, if_neg (by omega)]
    rfl

/-- An accepted blob meets all checks. -/
theorem met_of_decode {blob : Bytes} {keys : KeyPair} (h : decode blob = .ok keys) :
    (∀ check ∈ checks, check.Met blob) ∧ keysIn blob = keys := by
  rw [decode_eq_judge] at h
  obtain ⟨u, hjudge, hkeys⟩ := Except.map_eq_ok.mp h
  exact ⟨judge_eq_ok_iff.mp hjudge, hkeys⟩

/-- Its second entry ends behind both keys. -/
theorem entryStart_of_decode {blob : Bytes} {keys : KeyPair} (h : decode blob = .ok keys) :
    entryStart blob 2 = 10 + keys.boot.length + keys.root.length := by
  obtain ⟨hmet, rfl⟩ := met_of_decode h
  have hfirst : (keyOf blob 0).length = keySize blob 0 :=
    length_part (hmet (.keyThere 0) (by decide))
  have hsecond : (keyOf blob 1).length = keySize blob 1 :=
    length_part (hmet (.keyThere 1) (by decide))
  rw [entryStart_succ, entryStart_succ, entryStart, ← hfirst, ← hsecond, keysIn]
  by_cases htag : tagOf blob 0 = 1
  · rw [if_pos htag]
    show _ = 10 + (keyOf blob 0).length + (keyOf blob 1).length
    omega
  · rw [if_neg htag]
    show _ = 10 + (keyOf blob 1).length + (keyOf blob 0).length
    omega

/-! ## Places -/

/-- How many places hold a key. -/
def Places.filled (p : Places) : Nat :=
  p.boot.toList.length + p.root.toList.length

theorem filled_eq (p : Places) (kind : KeyKind) :
    p.filled = (p.get kind).toList.length + (p.get kind.other).toList.length := by
  cases kind with
  | boot => rfl
  | root => exact Nat.add_comm _ _

theorem filled_fill {p p' : Places} {kind : KeyKind} {key : Bytes} (h : p.fill kind key = .ok p') :
    p'.filled = p.filled + 1 := by
  obtain ⟨hfree, hself, hother⟩ := fill_eq_ok h
  rw [filled_eq p' kind, filled_eq p kind, hself, hother, hfree, Option.toList_some,
    Option.toList_none, List.length_singleton, List.length_nil]
  omega

/-- Every entry that is read fills a place. -/
theorem filled_readEntries {count : Nat} {p p' : Places} {c : Cursor}
    (h : readEntries count p c = .ok p') : p'.filled = p.filled + count := by
  induction count generalizing p c with
  | zero =>
      cases h
      rfl
  | succ count ih =>
      obtain ⟨⟨kind, key, next⟩, -, h⟩ := Except.bind_eq_ok.mp h
      obtain ⟨p₁, hfill, h⟩ := Except.bind_eq_ok.mp h
      rw [ih h, filled_fill hfill]
      omega

/-- So after as many entries as a blob has, no place is left empty. -/
theorem exists_complete {p : Places} {c : Cursor}
    (h : readEntries entryCount.toNat ⟨none, none⟩ c = .ok p) :
    ∃ keys, p.complete = .ok keys := by
  have hfilled : p.filled = 2 := filled_readEntries h
  obtain ⟨boot, root⟩ := p
  cases boot with
  | none =>
      have hle : root.toList.length ≤ 1 := Option.length_toList_le
      rw [Places.filled] at hfilled
      simp only [Option.toList_none, List.length_nil] at hfilled
      omega
  | some boot =>
      cases root with
      | none => exact nomatch hfilled
      | some root => exact ⟨⟨boot, root⟩, rfl⟩

/-! ## Keys that come twice -/

/-- Only a place that is not free is blamed on a kind. -/
theorem exists_of_fault_eq_duplicateKey {blob : Bytes} {check : Check} {kind : KeyKind}
    (h : check.fault blob = .duplicateKey kind) : ∃ i, check = .placeFree i := by
  cases check with
  | countThere => exact nomatch h
  | countValid => exact nomatch h
  | headerThere i =>
      rw [Check.fault] at h
      split at h
      · exact nomatch h
      · exact nomatch h
  | tagKnown i => exact nomatch h
  | keyThere i => exact nomatch h
  | placeFree i => exact ⟨i, rfl⟩

/-- All checks but the last: there are two whole entries, and their tags are
    known. -/
theorem met_dropLast_iff {blob : Bytes} :
    (∀ check ∈ checks.dropLast, check.Met blob) ↔
      countOf blob = 2 ∧ entryStart blob 2 ≤ blob.length ∧
      (tagOf blob 0 = 1 ∨ tagOf blob 0 = 2) ∧ (tagOf blob 1 = 1 ∨ tagOf blob 1 = 2) := by
  constructor
  · intro hmet
    exact ⟨hmet .countValid (by decide), hmet (.keyThere 1) (by decide),
      hmet (.tagKnown 0) (by decide), hmet (.tagKnown 1) (by decide)⟩
  · rintro ⟨hcount, hend, hfirst, hsecond⟩
    have hkey₀ : entryStart blob 1 ≤ blob.length :=
      Nat.le_trans (entryStart_mono blob (by decide)) hend
    have hheader₀ : entryStart blob 0 + 4 ≤ blob.length :=
      Nat.le_trans (Nat.le_add_right _ _) hkey₀
    have hheader₁ : entryStart blob 1 + 4 ≤ blob.length :=
      Nat.le_trans (Nat.le_add_right _ _) hend
    have hthere : 2 ≤ blob.length := Nat.le_trans (Nat.le_add_right 2 4) hheader₀
    simp only [checks, entriesChecks, entryChecks, List.cons_append, List.nil_append,
      List.dropLast, List.forall_mem_cons]
    exact ⟨hthere, hcount, hheader₀, hfirst, hkey₀, fun j hj => absurd hj (Nat.not_lt_zero j),
      hheader₁, hsecond, hend, nofun⟩

/-- A key is refused for its kind exactly when two whole entries carry its
    tag. -/
theorem decode_eq_duplicateKey_iff {blob : Bytes} {kind : KeyKind} :
    decode blob = .error (.duplicateKey kind) ↔
      countOf blob = 2 ∧ entryStart blob 2 ≤ blob.length ∧
      tagOf blob 0 = kind.tag ∧ tagOf blob 1 = kind.tag := by
  have hlast : judge blob checks
      = judge blob checks.dropLast >>= fun _ => judge blob [.placeFree 1] :=
    judge_append blob checks.dropLast [.placeFree 1]
  have hmeets : (Check.placeFree 1).Met blob ↔ tagOf blob 0 ≠ tagOf blob 1 := by
    simp [Check.Met]
  rw [decode_eq_judge, hlast]
  constructor
  · intro h
    cases hjudge : judge blob checks.dropLast with
    | error e =>
        -- of the checks before the last, only one is on a place, which is free
        obtain ⟨check, hmem, hfails, rfl⟩ := exists_of_judge_eq_error hjudge
        rw [hjudge] at h
        obtain ⟨i, rfl⟩ := exists_of_fault_eq_duplicateKey (Except.error.inj h)
        obtain rfl : i = 0 := by simpa [checks, entriesChecks, entryChecks] using hmem
        exact absurd (fun j hj => absurd hj (Nat.not_lt_zero j)) hfails
    | ok u =>
        obtain ⟨hcount, hend, -, hsecond⟩ := met_dropLast_iff.mp (judge_eq_ok_iff.mp hjudge)
        rw [hjudge, Except.ok_bind] at h
        by_cases hfree : tagOf blob 0 ≠ tagOf blob 1
        · rw [judge_of_met _ (hmeets.mpr hfree)] at h
          exact nomatch h
        · rw [judge_of_not_met _ (mt hmeets.mp hfree)] at h
          have hkind := Except.error.inj h
          obtain ⟨kind', -, htag⟩ := KeyKind.exists_ofTag hsecond
          rw [Check.fault, htag, kind_of_tag] at hkind
          cases hkind
          exact ⟨hcount, hend, (not_not.mp hfree).trans htag, htag⟩
  · rintro ⟨hcount, hend, hfirst, hsecond⟩
    have hknown : kind.tag = 1 ∨ kind.tag = 2 := by
      cases kind with
      | boot => exact Or.inl rfl
      | root => exact Or.inr rfl
    have hmet := met_dropLast_iff.mpr ⟨hcount, hend, hfirst ▸ hknown, hsecond ▸ hknown⟩
    have htaken : ¬ (Check.placeFree 1).Met blob :=
      mt hmeets.mp (not_not.mpr (hfirst.trans hsecond.symm))
    rw [judge_eq_ok_iff.mpr hmet, Except.ok_bind, judge_of_not_met _ htaken, Check.fault, hsecond,
      kind_of_tag]
    rfl

/-! ## Blobs that are cut off -/

section Cut

variable {blob b : Bytes} (hcommon : ∀ k, k < b.length → b[k]? = blob[k]?)

include hcommon in
/-- Where a blob is not cut off yet, its entries stand where they stood. -/
theorem entryStart_common {i : Nat} (h : entryStart blob i ≤ b.length) :
    entryStart b i = entryStart blob i := by
  induction i with
  | zero => rfl
  | succ i ih =>
      rw [entryStart_succ] at h
      have hbefore := ih (by omega)
      rw [entryStart, entryStart, hbefore, numberAt_common hcommon (by omega)]

include hcommon in
/-- The headers that are still there say what they said. -/
theorem header_common {i : Nat} (h : entryStart blob i + 4 ≤ b.length) :
    tagOf b i = tagOf blob i ∧ keySize b i = keySize blob i := by
  have hstart := entryStart_common hcommon (i := i) (by omega)
  have htag : numberAt b 2 (entryStart blob i) = numberAt blob 2 (entryStart blob i) :=
    numberAt_common hcommon (by omega)
  have hsize : numberAt b 2 (entryStart blob i + 2) = numberAt blob 2 (entryStart blob i + 2) :=
    numberAt_common hcommon h
  rw [tagOf, tagOf, keySize, keySize, hstart, htag, hsize]
  exact ⟨rfl, rfl⟩

include hcommon in
/-- An entry that is all there meets the checks that it met. -/
theorem met_common {i : Nat} (hend : entryStart blob (i + 1) ≤ b.length)
    (hmet : ∀ check ∈ entryChecks i, check.Met blob) : ∀ check ∈ entryChecks i, check.Met b := by
  have hheader : entryStart blob i + 4 ≤ b.length := Nat.le_trans (Nat.le_add_right _ _) hend
  have hplace := entryStart_common hcommon (Nat.le_trans (Nat.le_add_right _ 4) hheader)
  obtain ⟨htag, hsize⟩ := header_common hcommon hheader
  simp only [entryChecks, List.forall_mem_cons, Check.Met, hplace, htag, hsize] at hmet ⊢
  obtain ⟨-, hknown, -, hfree, -⟩ := hmet
  refine ⟨hheader, hknown, hend, ?_, nofun⟩
  intro j hj
  have hbefore : entryStart blob j + 4 ≤ b.length :=
    Nat.le_trans (Nat.le_add_right _ _) (Nat.le_trans (entryStart_mono blob hj)
      (Nat.le_trans (Nat.le_add_right _ 4) hheader))
  rw [(header_common hcommon hbefore).1]
  exact hfree j hj

include hcommon in
/-- An entry that met its checks and has begun before the cut, but not
    ended, is refused for that. -/
theorem judge_entryChecks_of_cut {i : Nat} (hmet : ∀ check ∈ entryChecks i, check.Met blob)
    (hstart : entryStart blob i ≤ b.length) (hcut : b.length < entryStart blob (i + 1)) :
    ∃ cause, judge b (entryChecks i) = .error (.truncated cause) := by
  have hplace := entryStart_common hcommon hstart
  rw [entryChecks]
  by_cases hheader : entryStart blob i + 4 ≤ b.length
  · obtain ⟨htag, hsize⟩ := header_common hcommon hheader
    have hheaderMet : (Check.headerThere i).Met b := by
      rw [Check.Met, hplace]
      exact hheader
    have htagMet : (Check.tagKnown i).Met b := by
      rw [Check.Met, htag]
      exact hmet (.tagKnown i) (by simp [entryChecks])
    have hkeyCut : ¬ (Check.keyThere i).Met b := by
      rw [Check.Met, hplace, hsize]
      exact Nat.not_le_of_lt hcut
    rw [judge_of_met _ hheaderMet, judge_of_met _ htagMet, judge_of_not_met _ hkeyCut]
    exact ⟨_, rfl⟩
  · have hheaderCut : ¬ (Check.headerThere i).Met b := by
      rw [Check.Met, hplace]
      exact hheader
    rw [judge_of_not_met _ hheaderCut, Check.fault]
    by_cases hfirst : entryStart b i + 2 ≤ b.length
    · rw [if_pos hfirst]
      exact ⟨_, rfl⟩
    · rw [if_neg hfirst]
      exact ⟨_, rfl⟩

include hcommon in
/-- Of entries in a row that meet their checks, the first that is not all
    there any more is refused for that. -/
theorem judge_of_cut (count i : Nat) (hmet : ∀ check ∈ entriesChecks i count, check.Met blob)
    (hstart : entryStart blob i ≤ b.length) (hcut : b.length < entryStart blob (i + count)) :
    ∃ cause, judge b (entriesChecks i count) = .error (.truncated cause) := by
  induction count generalizing i with
  | zero => exact absurd hcut (Nat.not_lt_of_le hstart)
  | succ count ih =>
      obtain ⟨hentry, hrest⟩ := List.forall_mem_append.mp hmet
      rw [entriesChecks, judge_append]
      by_cases hend : entryStart blob (i + 1) ≤ b.length
      · rw [judge_eq_ok_iff.mpr (met_common hcommon hend hentry), Except.ok_bind]
        refine ih (i + 1) hrest hend ?_
        rwa [Nat.add_assoc, Nat.add_comm 1]
      · obtain ⟨cause, hjudge⟩ :=
          judge_entryChecks_of_cut hcommon hentry hstart (Nat.lt_of_not_le hend)
        rw [hjudge]
        exact ⟨cause, rfl⟩

include hcommon in
/-- An accepted blob that is cut off before its second entry ends is refused
    for that. -/
theorem decode_of_cut {keys : KeyPair} (h : decode blob = .ok keys)
    (hcut : b.length < entryStart blob 2) : ∃ cause, decode b = .error (.truncated cause) := by
  obtain ⟨hmet, -⟩ := met_of_decode h
  rw [decode_eq_judge]
  show ∃ cause, (judge b (.countThere :: .countValid :: entriesChecks 0 2)).map _
    = .error (.truncated cause)
  by_cases hthere : 2 ≤ b.length
  · have hvalid : countOf b = 2 := by
      rw [countOf, numberAt_common hcommon hthere]
      exact hmet .countValid (by decide)
    obtain ⟨cause, hjudge⟩ := judge_of_cut hcommon 2 0
      (fun check hcheck => hmet check (List.mem_append_right _ hcheck)) hthere hcut
    rw [judge_of_met .countThere hthere, judge_of_met .countValid hvalid,
      hjudge]
    exact ⟨cause, rfl⟩
  · rw [judge_of_not_met .countThere hthere]
    exact ⟨_, rfl⟩

end Cut

/-- **The first fault is blamed.**  What decoding comes to is settled by the
    first check that fails, in the order in which the bytes are read: it
    refuses the blob, and a blob that fails none gives its keys.  So a blob
    is refused for carrying a kind twice exactly when it declares two
    entries and has two whole ones with the tag of that kind; no place is
    left empty when two entries have been read, from wherever; and an
    accepted blob is refused as cut off if it ends before its second entry
    does, and gives the same keys if it ends anywhere behind. -/
theorem decode_firstFault (blob : Bytes) :
    (decode blob = match checks.find? fun check => ¬ check.Met blob with
      | some check => .error (check.fault blob)
      | none => .ok (keysIn blob)) ∧
    (∀ kind, decode blob = .error (.duplicateKey kind) ↔
      countOf blob = 2 ∧ entryStart blob 2 ≤ blob.length ∧
      tagOf blob 0 = kind.tag ∧ tagOf blob 1 = kind.tag) ∧
    (∀ c p, readEntries entryCount.toNat ⟨none, none⟩ c = .ok p →
      ∃ keys, p.complete = .ok keys) ∧
    ∀ keys, decode blob = .ok keys → ∀ n,
      if n < 10 + keys.boot.length + keys.root.length then
        ∃ cause, decode (blob.take n) = .error (.truncated cause)
      else decode (blob.take n) = .ok keys := by
  refine ⟨?_, fun kind => decode_eq_duplicateKey_iff, fun c p => exists_complete, ?_⟩
  · rw [decode_eq_judge, judge]
    cases checks.find? fun check => ¬ check.Met blob with
    | none => rfl
    | some check => rfl
  · intro keys h n
    have hend := entryStart_of_decode h
    by_cases hn : n < 10 + keys.boot.length + keys.root.length
    · rw [if_pos hn]
      have hlength : (blob.take n).length ≤ n := List.length_take_le n blob
      refine decode_of_cut ?_ h (by omega)
      intro k hk
      exact List.getElem?_take_of_lt (by omega)
    · rw [if_neg hn]
      obtain ⟨hfit, first, tail, rfl⟩ := decode_eq_ok_iff.mp h
      rw [List.take_append, List.take_of_length_le (by rw [length_orderedBytes]; omega)]
      exact decode_orderedBytes_append hfit first _

/-- The second entry has the tag of the first and a byte too few: it is
    refused for the byte.  With that byte it is refused for the tag, and
    with another tag it is accepted. -/
theorem decode_firstFault_several :
    (decode [2, 0, 1, 0, 0, 0, 1, 0, 1, 0]
      = match checks.find? fun check => ¬ check.Met [2, 0, 1, 0, 0, 0, 1, 0, 1, 0] with
        | some check => .error (check.fault [2, 0, 1, 0, 0, 0, 1, 0, 1, 0])
        | none => .ok (keysIn [2, 0, 1, 0, 0, 0, 1, 0, 1, 0])) ∧
    (checks.find? fun check => ¬ check.Met [2, 0, 1, 0, 0, 0, 1, 0, 1, 0]) = some (.keyThere 1) ∧
    decode [2, 0, 1, 0, 0, 0, 1, 0, 1, 0, 9] = .error (.duplicateKey .boot) ∧
    decode [2, 0, 1, 0, 0, 0, 2, 0, 1, 0, 9] = .ok ⟨[], [9]⟩ ∧
    (∃ cause, decode ([2, 0, 1, 0, 0, 0, 2, 0, 1, 0, 9].take 10) = .error (.truncated cause)) ∧
    ∃ keys, Places.complete ⟨some [], some [9]⟩ = .ok keys := by
  have haccepted : decode [2, 0, 1, 0, 0, 0, 2, 0, 1, 0, 9] = .ok ⟨[], [9]⟩ := by decide +kernel
  have hread : readEntries entryCount.toNat ⟨none, none⟩
      (.ofBytes [1, 0, 0, 0, 2, 0, 1, 0, 9]) = .ok ⟨some [], some [9]⟩ := by decide +kernel
  obtain ⟨-, -, hcomplete, hcut⟩ := decode_firstFault [2, 0, 1, 0, 0, 0, 2, 0, 1, 0, 9]
  exact ⟨(decode_firstFault _).1, by decide +kernel,
    ((decode_firstFault _).2.1 .boot).mpr (by decide +kernel), haccepted, hcut _ haccepted 10,
    hcomplete _ _ hread⟩

end KeyBlob

end DiskKeys
