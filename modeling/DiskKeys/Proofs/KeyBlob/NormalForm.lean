import DiskKeys.Proofs.KeyBlob.RoundTrip

/-! # Which bytes are a blob

    An entry that is read stood in front in its written form
    (`readEntry_eq_ok`).  Of two entries that fill both places one is for
    each kind, since a place takes one key only; so bytes are accepted
    exactly when they begin with the count and the entries of the two keys
    in one of the two orders (`decode_eq_ok_iff`).  Combining the keys
    again puts the boot key first and drops what follows the entries, and
    changes nothing else (`decode_normalForm`). -/

namespace DiskKeys

namespace KeyKind

/-- Only the tag of a kind stands for it. -/
theorem ofTag_eq_ok {tag : UInt16} {kind : KeyKind} (h : ofTag tag = .ok kind) :
    tag = kind.tag := by
  unfold ofTag at h
  by_cases hboot : tag = 1
  · rw [if_pos hboot] at h
    cases h
    exact hboot
  · rw [if_neg hboot] at h
    by_cases hroot : tag = 2
    · rw [if_pos hroot] at h
      cases h
      exact hroot
    · rw [if_neg hroot] at h
      exact nomatch h

theorem eq_other_of_ne {kind kind' : KeyKind} (h : kind' ≠ kind) : kind' = kind.other := by
  cases kind with
  | boot =>
      cases kind' with
      | boot => exact absurd rfl h
      | root => rfl
  | root =>
      cases kind' with
      | boot => rfl
      | root => exact absurd rfl h

end KeyKind

namespace KeyBlob

/-! ## Entries -/

/-- An entry that was read stood in front, as it is written. -/
theorem readEntry_eq_ok {position : Nat} {bytes key : Bytes} {kind : KeyKind} {c : Cursor}
    (h : readEntry (.ahead position bytes) = .ok (kind, key, c)) :
    key.length ≤ maxKeySize ∧ ∃ rest, bytes = entryBytes kind key ++ rest ∧
      c = .ahead (position + 4 + key.length) rest := by
  simp only [readEntry, Except.bind_eq_ok, Except.mapError_eq_ok, Except.pure_eq_ok,
    Except.ok.injEq, Prod.mk.injEq] at h
  obtain ⟨⟨tag, c₁⟩, htag, ⟨size, c₂⟩, hsize, kind', hkind, ⟨key', c₃⟩, hkey, rfl, rfl, rfl⟩ := h
  obtain ⟨rest₁, rfl, rfl⟩ := Cursor.readU16_ahead_eq_ok htag
  obtain ⟨rest₂, rfl, rfl⟩ := Cursor.readU16_ahead_eq_ok hsize
  obtain ⟨hlength, rest, rfl, rfl⟩ := Cursor.take_ahead_eq_ok hkey
  obtain rfl := KeyKind.ofTag_eq_ok hkind
  refine ⟨?_, rest, ?_, ?_⟩
  · rw [hlength]
    exact Nat.le_of_lt_succ size.toNat_lt
  · rw [entryBytes, hlength, List.append_assoc, List.append_assoc]
  · rw [hlength]

/-- A key is put into a place that was free; the other place stays. -/
theorem fill_eq_ok {p p' : Places} {kind : KeyKind} {key : Bytes} (h : p.fill kind key = .ok p') :
    p.get kind = none ∧ p'.get kind = some key ∧ p'.get kind.other = p.get kind.other := by
  unfold Places.fill at h
  obtain ⟨hfree, h⟩ := Except.guard_eq_ok.mp h
  refine ⟨by simpa using hfree, ?_⟩
  cases kind with
  | boot =>
      cases h
      exact ⟨rfl, rfl⟩
  | root =>
      cases h
      exact ⟨rfl, rfl⟩

/-- The keys are what the places hold. -/
theorem complete_eq_ok {p : Places} {keys : KeyPair} (h : p.complete = .ok keys)
    (kind : KeyKind) : p.get kind = some (keys.get kind) := by
  obtain ⟨boot, root⟩ := p
  cases boot with
  | none => exact nomatch h
  | some boot =>
      cases root with
      | none => exact nomatch h
      | some root =>
          cases h
          cases kind with
          | boot => rfl
          | root => rfl

/-- Two entries that fill the places are the entries of both kinds. -/
theorem readEntries_eq_ok {position : Nat} {bytes : Bytes} {p : Places} {keys : KeyPair}
    (h : readEntries 2 ⟨none, none⟩ (.ahead position bytes) = .ok p)
    (hcomplete : p.complete = .ok keys) :
    (∀ kind, (keys.get kind).length ≤ maxKeySize) ∧ ∃ first tail,
      bytes = entryBytes first (keys.get first)
        ++ (entryBytes first.other (keys.get first.other) ++ tail) := by
  simp only [readEntries, Except.bind_eq_ok, Except.ok.injEq] at h
  obtain ⟨⟨first, key₁, c₁⟩, hfirst, p₁, hfill₁, ⟨second, key₂, c₂⟩, hsecond, p₂, hfill₂, rfl⟩ := h
  obtain ⟨hsize₁, rest, rfl, rfl⟩ := readEntry_eq_ok hfirst
  obtain ⟨hsize₂, tail, rfl, rfl⟩ := readEntry_eq_ok hsecond
  obtain ⟨-, hkey₁, -⟩ := fill_eq_ok hfill₁
  obtain ⟨hfree, hkey₂, hkept⟩ := fill_eq_ok hfill₂
  -- the second entry cannot be for the kind of the first, whose place is taken
  have hother : first = second.other := by
    refine KeyKind.eq_other_of_ne ?_
    rintro rfl
    have htaken := hkey₁.symm.trans hfree
    cases htaken
  subst hother
  have hget₁ : keys.get second.other = key₁ :=
    Option.some.inj ((complete_eq_ok hcomplete _).symm.trans (hkept.trans hkey₁))
  have hget₂ : keys.get second = key₂ :=
    Option.some.inj ((complete_eq_ok hcomplete _).symm.trans hkey₂)
  have htwice : second.other.other = second := by
    cases second with
    | boot => rfl
    | root => rfl
  refine ⟨?_, second.other, tail, ?_⟩
  · intro kind
    by_cases hkind : kind = second
    · rw [hkind, hget₂]
      exact hsize₂
    · rw [KeyKind.eq_other_of_ne hkind, hget₁]
      exact hsize₁
  · rw [htwice, hget₁, hget₂]

/-! ## Blobs -/

/-- Bytes are accepted exactly when they begin with a blob of keys that
    entries hold. -/
theorem decode_eq_ok_iff {blob : Bytes} {keys : KeyPair} :
    decode blob = .ok keys ↔
      (∀ kind, (keys.get kind).length ≤ maxKeySize) ∧
      ∃ first tail, blob = orderedBytes first keys ++ tail := by
  constructor
  · intro h
    simp only [decode, Cursor.ofBytes_eq_ahead, Except.bind_eq_ok, Except.mapError_eq_ok,
      Except.throw_bind, Except.guard_eq_ok] at h
    obtain ⟨⟨count, c⟩, hcount, hvalid, p, hentries, hcomplete⟩ := h
    obtain rfl : count = entryCount := not_not.mp hvalid
    obtain ⟨rest, rfl, rfl⟩ := Cursor.readU16_ahead_eq_ok hcount
    obtain ⟨hfit, first, tail, rfl⟩ := readEntries_eq_ok hentries hcomplete
    refine ⟨hfit, first, tail, ?_⟩
    rw [orderedBytes, List.append_assoc, List.append_assoc]
  · rintro ⟨hfit, first, tail, rfl⟩
    exact decode_orderedBytes_append hfit first tail

/-- Behind the count stands the tag of the first entry. -/
theorem numberAt_orderedBytes_append (first : KeyKind) (keys : KeyPair) (tail : Bytes) :
    numberAt (orderedBytes first keys ++ tail) 2 2 = first.tag.toNat := by
  have hparts : orderedBytes first keys ++ tail = toLittleEndian 2 entryCount.toNat
      ++ (toLittleEndian 2 first.tag.toNat
        ++ (toLittleEndian 2 (keys.get first).length ++ keys.get first
          ++ (entryBytes first.other (keys.get first.other) ++ tail))) := by
    simp only [orderedBytes, entryBytes, List.append_assoc]
  have htag := part_append_append (toLittleEndian 2 entryCount.toNat)
    (toLittleEndian 2 first.tag.toNat)
    (toLittleEndian 2 (keys.get first).length ++ keys.get first
      ++ (entryBytes first.other (keys.get first.other) ++ tail))
  rw [length_toLittleEndian, length_toLittleEndian] at htag
  rw [hparts, numberAt, htag, littleEndian_toLittleEndian first.tag.toNat_lt]

/-- A blob is the one that combining its keys gives exactly when the boot
    key comes first in it and nothing follows its entries. -/
theorem blobBytes_eq_iff (first : KeyKind) (keys : KeyPair) (tail : Bytes) :
    blobBytes keys = orderedBytes first keys ++ tail ↔
      numberAt (orderedBytes first keys ++ tail) 2 2 = 1 ∧
      (orderedBytes first keys ++ tail).length = 10 + keys.boot.length + keys.root.length := by
  rw [numberAt_orderedBytes_append, List.length_append, length_orderedBytes]
  constructor
  · intro h
    have htag := numberAt_orderedBytes_append first keys tail
    have hlength := congrArg List.length h
    rw [← h, ← orderedBytes_boot, ← List.append_nil (orderedBytes .boot keys),
      numberAt_orderedBytes_append] at htag
    rw [length_blobBytes, List.length_append, length_orderedBytes] at hlength
    exact ⟨htag.symm, hlength.symm⟩
  · rintro ⟨htag, hlength⟩
    have htail : tail = [] := List.length_eq_zero_iff.mp (by omega)
    cases first with
    | boot => rw [htail, List.append_nil, orderedBytes_boot]
    | root => exact absurd htag (by decide)

/-- **Blobs and their normal form.**  Bytes are accepted as a blob of two
    keys exactly when both keys have at most 65535 bytes and the bytes
    begin with the number two and then the entries of the keys, in one of
    the two orders.  The keys of an accepted blob can always be combined
    again, and are found again in what that gives; and it is the blob they
    came from exactly when this has the boot entry first, which is the one
    with tag 1, and ends with its entries. -/
theorem decode_normalForm (blob : Bytes) (keys : KeyPair) :
    (decode blob = .ok keys ↔
      keys.boot.length ≤ 65535 ∧ keys.root.length ≤ 65535 ∧ ∃ tail,
        blob = toLittleEndian 2 2
          ++ (entryBytes .boot keys.boot ++ entryBytes .root keys.root) ++ tail ∨
        blob = toLittleEndian 2 2
          ++ (entryBytes .root keys.root ++ entryBytes .boot keys.boot) ++ tail) ∧
    (decode blob = .ok keys → ∃ normal,
      encode keys = .ok normal ∧ decode normal = .ok keys ∧
      (normal = blob ↔
        numberAt blob 2 2 = 1 ∧ blob.length = 10 + keys.boot.length + keys.root.length)) := by
  constructor
  · rw [decode_eq_ok_iff]
    constructor
    · rintro ⟨hfit, first, tail, hblob⟩
      refine ⟨hfit .boot, hfit .root, tail, ?_⟩
      cases first with
      | boot => exact Or.inl hblob
      | root => exact Or.inr hblob
    · rintro ⟨hboot, hroot, tail, hblob | hblob⟩
      · exact ⟨KeyKind.rec hboot hroot, .boot, tail, hblob⟩
      · exact ⟨KeyKind.rec hboot hroot, .root, tail, hblob⟩
  · intro h
    obtain ⟨hfit, first, tail, rfl⟩ := decode_eq_ok_iff.mp h
    refine ⟨blobBytes keys, encode_eq_ok (hfit .boot) (hfit .root), ?_,
      blobBytes_eq_iff first keys tail⟩
    rw [← List.append_nil (blobBytes keys)]
    exact decode_blobBytes_append (hfit .boot) (hfit .root) []

/-- A blob with the root key first and a byte too many is accepted; what
    its keys give is another one, from which neither can be told. -/
theorem decode_normalForm_rootFirst :
    decode [2, 0, 2, 0, 2, 0, 8, 9, 1, 0, 1, 0, 7, 5] = .ok ⟨[7], [8, 9]⟩ ∧
    ∃ normal, encode ⟨[7], [8, 9]⟩ = .ok normal ∧ decode normal = .ok ⟨[7], [8, 9]⟩ ∧
      normal ≠ [2, 0, 2, 0, 2, 0, 8, 9, 1, 0, 1, 0, 7, 5] := by
  have haccepted : decode [2, 0, 2, 0, 2, 0, 8, 9, 1, 0, 1, 0, 7, 5] = .ok ⟨[7], [8, 9]⟩ := by
    decide +kernel
  obtain ⟨normal, hencode, hdecode, hsame⟩ := (decode_normalForm _ _).2 haccepted
  exact ⟨haccepted, normal, hencode, hdecode, fun heq => absurd (hsame.mp heq).1 (by decide)⟩

end KeyBlob

end DiskKeys
