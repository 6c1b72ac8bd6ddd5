import DiskKeys.KeyBlob
import DiskKeys.Proofs.Bytes.Cursor

/-! # Splitting what was combined

    A blob is the count of its entries and then the entries one after the
    other, each a tag, a size and as many bytes.  The size takes two bytes,
    and that is the only limit to a key: encoding refuses the first key
    that exceeds it, and otherwise writes the blob (`encode_eq_ok`).
    Decoding reads an entry wherever it finds its written form in front,
    whatever comes behind (`readEntry_entryBytes`), so neither the bytes of
    the keys nor those that follow the blob can lead it astray
    (`decode_encode_append`). -/

namespace DiskKeys

/-- The kind besides a kind. -/
def KeyKind.other : KeyKind → KeyKind
  | .boot => .root
  | .root => .boot

namespace KeyBlob

/-- The written form of an entry. -/
def entryBytes (kind : KeyKind) (key : Bytes) : Bytes :=
  toLittleEndian 2 kind.tag.toNat ++ (toLittleEndian 2 key.length ++ key)

/-- The written form of a blob. -/
def blobBytes (keys : KeyPair) : Bytes :=
  toLittleEndian 2 entryCount.toNat
    ++ (entryBytes .boot keys.boot ++ entryBytes .root keys.root)

/-- The written form of a blob that has the entry of a given kind first. -/
def orderedBytes (first : KeyKind) (keys : KeyPair) : Bytes :=
  toLittleEndian 2 entryCount.toNat
    ++ (entryBytes first (keys.get first) ++ entryBytes first.other (keys.get first.other))

theorem orderedBytes_boot (keys : KeyPair) : orderedBytes .boot keys = blobBytes keys := rfl

theorem length_entryBytes (kind : KeyKind) (key : Bytes) :
    (entryBytes kind key).length = 4 + key.length := by
  simp only [entryBytes, List.length_append, length_toLittleEndian]
  omega

theorem length_orderedBytes (first : KeyKind) (keys : KeyPair) :
    (orderedBytes first keys).length = 10 + keys.boot.length + keys.root.length := by
  simp only [orderedBytes, List.length_append, length_toLittleEndian, length_entryBytes]
  cases first with
  | boot =>
      simp only [KeyKind.other, KeyPair.get]
      omega
  | root =>
      simp only [KeyKind.other, KeyPair.get]
      omega

theorem length_blobBytes (keys : KeyPair) :
    (blobBytes keys).length = 10 + keys.boot.length + keys.root.length :=
  length_orderedBytes .boot keys

/-- A key that an entry holds has a size of two bytes. -/
theorem toNat_ofNat_length {key : Bytes} (h : key.length ≤ maxKeySize) :
    (UInt16.ofNat key.length).toNat = key.length :=
  UInt16.toNat_ofNat_of_lt' (Nat.lt_succ_of_le h)

/-! ## Encoding -/

/-- A key that an entry holds is written. -/
theorem putEntry_eq_ok {key : Bytes} (h : key.length ≤ maxKeySize) (b : Builder) (kind : KeyKind) :
    ∃ b', putEntry b kind key = .ok b' ∧ b'.toBytes = b.toBytes ++ entryBytes kind key := by
  refine ⟨((b.putU16 kind.tag).putU16 (.ofNat key.length)).putBytes key, if_pos h, ?_⟩
  simp only [Builder.toBytes_putBytes, Builder.toBytes_putU16, toNat_ofNat_length h, entryBytes,
    List.append_assoc]

theorem putEntry_eq_error {key : Bytes} (h : maxKeySize < key.length) (b : Builder)
    (kind : KeyKind) : putEntry b kind key = .error (.keyTooLarge kind key.length) :=
  if_neg (Nat.not_le_of_lt h)

theorem encode_eq_ok {keys : KeyPair} (hboot : keys.boot.length ≤ maxKeySize)
    (hroot : keys.root.length ≤ maxKeySize) : encode keys = .ok (blobBytes keys) := by
  obtain ⟨b₁, hput₁, hbytes₁⟩ := putEntry_eq_ok hboot
    ((Builder.withCapacity (10 + keys.boot.length + keys.root.length)).putU16 entryCount) .boot
  obtain ⟨b₂, hput₂, hbytes₂⟩ := putEntry_eq_ok hroot b₁ .root
  simp only [encode, hput₁, hput₂, Except.ok_bind, Except.pure_eq_ok, hbytes₂, hbytes₁, blobBytes,
    Builder.toBytes_putU16, Builder.toBytes_withCapacity, List.nil_append, List.append_assoc]

/-- A boot key that is too large is refused, whatever the root key is. -/
theorem encode_eq_error_boot {keys : KeyPair} (h : maxKeySize < keys.boot.length) :
    encode keys = .error (.keyTooLarge .boot keys.boot.length) := by
  rw [encode, putEntry_eq_error h]
  rfl

/-- A root key that is too large is refused once the boot key is written. -/
theorem encode_eq_error_root {keys : KeyPair} (hboot : keys.boot.length ≤ maxKeySize)
    (hroot : maxKeySize < keys.root.length) :
    encode keys = .error (.keyTooLarge .root keys.root.length) := by
  obtain ⟨b, hput, -⟩ := putEntry_eq_ok hboot
    ((Builder.withCapacity (10 + keys.boot.length + keys.root.length)).putU16 entryCount) .boot
  rw [encode, hput, Except.ok_bind, putEntry_eq_error hroot]
  rfl

/-- Nothing else is encoded. -/
theorem encode_eq_ok_iff {keys : KeyPair} {blob : Bytes} :
    encode keys = .ok blob ↔
      keys.boot.length ≤ maxKeySize ∧ keys.root.length ≤ maxKeySize ∧ blob = blobBytes keys := by
  constructor
  · intro h
    by_cases hboot : keys.boot.length ≤ maxKeySize
    · by_cases hroot : keys.root.length ≤ maxKeySize
      · rw [encode_eq_ok hboot hroot] at h
        exact ⟨hboot, hroot, (Except.ok.inj h).symm⟩
      · rw [encode_eq_error_root hboot (Nat.lt_of_not_le hroot)] at h
        exact nomatch h
    · rw [encode_eq_error_boot (Nat.lt_of_not_le hboot)] at h
      exact nomatch h
  · rintro ⟨hboot, hroot, rfl⟩
    exact encode_eq_ok hboot hroot

/-- Whether and why keys are refused depends on their lengths alone, and so
    does the length of the blob. -/
theorem encode_alike {keys keys' : KeyPair} (hboot : keys.boot.length = keys'.boot.length)
    (hroot : keys.root.length = keys'.root.length) :
    (encode keys).Alike (fun blob blob' => blob.length = blob'.length) (encode keys') := by
  by_cases hbootFits : keys'.boot.length ≤ maxKeySize
  · by_cases hrootFits : keys'.root.length ≤ maxKeySize
    · rw [encode_eq_ok (hboot ▸ hbootFits) (hroot ▸ hrootFits), encode_eq_ok hbootFits hrootFits]
      refine .ok ?_
      rw [length_blobBytes, length_blobBytes, hboot, hroot]
    · have hlarge := Nat.lt_of_not_le hrootFits
      rw [encode_eq_error_root (hboot ▸ hbootFits) (hroot ▸ hlarge),
        encode_eq_error_root hbootFits hlarge, hroot]
      exact .error _
  · have hlarge := Nat.lt_of_not_le hbootFits
    rw [encode_eq_error_boot (hboot ▸ hlarge), encode_eq_error_boot hlarge, hboot]
    exact .error _

/-! ## Decoding -/

theorem ofTag_tag (kind : KeyKind) : KeyKind.ofTag kind.tag = .ok kind := by
  cases kind <;> rfl

/-- An entry in front of the cursor is read and passed. -/
theorem readEntry_entryBytes {key : Bytes} (h : key.length ≤ maxKeySize) (kind : KeyKind)
    (position : Nat) (rest : Bytes) :
    readEntry (.ahead position (entryBytes kind key ++ rest))
      = .ok (kind, key, .ahead (position + 4 + key.length) rest) := by
  have hsize := toNat_ofNat_length h
  -- the size is read back as it was written, since the key fits
  have hfront : entryBytes kind key ++ rest = toLittleEndian 2 kind.tag.toNat
      ++ (toLittleEndian 2 (UInt16.ofNat key.length).toNat ++ (key ++ rest)) := by
    rw [entryBytes, hsize, List.append_assoc, List.append_assoc]
  simp only [hfront, readEntry, Cursor.readU16_append, Except.mapError_ok, Except.ok_bind,
    ofTag_tag]
  rw [hsize, Cursor.take_append _ key rest rfl]
  rfl

/-- Two entries of different kinds fill both places, whatever follows. -/
theorem readEntries_entryBytes {keys : KeyPair}
    (hfit : ∀ kind, (keys.get kind).length ≤ maxKeySize) (first : KeyKind) (position : Nat)
    (rest : Bytes) :
    readEntries 2 ⟨none, none⟩ (.ahead position
      (entryBytes first (keys.get first)
        ++ (entryBytes first.other (keys.get first.other) ++ rest)))
      = .ok ⟨some keys.boot, some keys.root⟩ := by
  simp only [readEntries, readEntry_entryBytes (hfit _), Except.ok_bind]
  cases first with
  | boot => rfl
  | root => rfl

/-- A blob with its entries in either order is split into its keys,
    whatever follows. -/
theorem decode_orderedBytes_append {keys : KeyPair}
    (hfit : ∀ kind, (keys.get kind).length ≤ maxKeySize) (first : KeyKind) (tail : Bytes) :
    decode (orderedBytes first keys ++ tail) = .ok keys := by
  have hfront : orderedBytes first keys ++ tail = toLittleEndian 2 entryCount.toNat
      ++ (entryBytes first (keys.get first)
        ++ (entryBytes first.other (keys.get first.other) ++ tail)) := by
    rw [orderedBytes, List.append_assoc, List.append_assoc]
  have hcount : entryCount.toNat = 2 := rfl
  simp only [decode, hfront, Cursor.ofBytes_eq_ahead, Cursor.readU16_append, Except.mapError_ok,
    Except.ok_bind, ne_eq, not_true, if_false]
  show (readEntries entryCount.toNat ⟨none, none⟩ _ >>= _) = _
  rw [hcount, readEntries_entryBytes hfit]
  rfl

/-- The written form of a blob is split into its keys, whatever follows. -/
theorem decode_blobBytes_append {keys : KeyPair} (hboot : keys.boot.length ≤ maxKeySize)
    (hroot : keys.root.length ≤ maxKeySize) (tail : Bytes) :
    decode (blobBytes keys ++ tail) = .ok keys := by
  rw [← orderedBytes_boot]
  exact decode_orderedBytes_append (KeyKind.rec hboot hroot) .boot tail

/-- **Splitting what was combined.**  Keys are refused if the boot key, or
    else the root key, has more than 65535 bytes, and the refusal names the
    key and its size.  All others give a blob of ten bytes and their own,
    and whatever bytes follow it, it is split into the same keys. -/
theorem decode_encode_append (keys : KeyPair) :
    if 65535 < keys.boot.length then
      encode keys = .error (.keyTooLarge .boot keys.boot.length)
    else if 65535 < keys.root.length then
      encode keys = .error (.keyTooLarge .root keys.root.length)
    else ∃ blob, encode keys = .ok blob ∧
      blob.length = 10 + keys.boot.length + keys.root.length ∧
      ∀ tail, decode (blob ++ tail) = .ok keys := by
  by_cases hboot : 65535 < keys.boot.length
  · rw [if_pos hboot]
    exact encode_eq_error_boot hboot
  · rw [if_neg hboot]
    have hboot' : keys.boot.length ≤ maxKeySize := Nat.le_of_not_lt hboot
    by_cases hroot : 65535 < keys.root.length
    · rw [if_pos hroot]
      exact encode_eq_error_root hboot' hroot
    · rw [if_neg hroot]
      have hroot' : keys.root.length ≤ maxKeySize := Nat.le_of_not_lt hroot
      exact ⟨blobBytes keys, encode_eq_ok hboot' hroot', length_blobBytes keys,
        decode_blobBytes_append hboot' hroot'⟩

/-- A boot key that looks like the entry of a root key, and a tail that
    looks like another entry, are taken for what they are. -/
example : (encode ⟨[2, 0, 1, 0, 9], []⟩).map (fun blob => decode (blob ++ [1, 0, 0, 0]))
    = .ok (.ok ⟨[2, 0, 1, 0, 9], []⟩) := by
  decide +kernel

end KeyBlob

end DiskKeys
