import DiskKeys.Bytes.Builder

/-! # Digests

    The SHA-256 digest of a byte string (FIPS 180-4).  The message is
    padded to whole blocks of 64 bytes; each block is stretched to sixty-four
    words and mixed into a state of eight. -/

namespace DiskKeys.Digest

/-- The word whose big-endian bytes are given. -/
def bigEndian (bytes : Bytes) : UInt32 :=
  bytes.foldl (fun acc b => acc <<< 8 ||| b.toUInt32) 0

/-- A bit one, then zeros up to eight bytes before a whole block, then the
    length in bits. -/
def padding (length : Nat) : Bytes :=
  0x80 :: List.replicate ((119 - length % 64) % 64) 0
    ++ (toLittleEndian 8 (8 * length)).reverse

/-- Rotation to the right. -/
def rotr (w : UInt32) (n : UInt32) : UInt32 :=
  w >>> n ||| w <<< (32 - n)

/-- The round constants. -/
def roundConstants : List UInt32 :=
  [0x428a2f98, 0x71374491, 0xb5c0fbcf, 0xe9b5dba5,
   0x3956c25b, 0x59f111f1, 0x923f82a4, 0xab1c5ed5,
   0xd807aa98, 0x12835b01, 0x243185be, 0x550c7dc3,
   0x72be5d74, 0x80deb1fe, 0x9bdc06a7, 0xc19bf174,
   0xe49b69c1, 0xefbe4786, 0x0fc19dc6, 0x240ca1cc,
   0x2de92c6f, 0x4a7484aa, 0x5cb0a9dc, 0x76f988da,
   0x983e5152, 0xa831c66d, 0xb00327c8, 0xbf597fc7,
   0xc6e00bf3, 0xd5a79147, 0x06ca6351, 0x14292967,
   0x27b70a85, 0x2e1b2138, 0x4d2c6dfc, 0x53380d13,
   0x650a7354, 0x766a0abb, 0x81c2c92e, 0x92722c85,
   0xa2bfe8a1, 0xa81a664b, 0xc24b8b70, 0xc76c51a3,
   0xd192e819, 0xd6990624, 0xf40e3585, 0x106aa070,
   0x19a4c116, 0x1e376c08, 0x2748774c, 0x34b0bcb5,
   0x391c0cb3, 0x4ed8aa4a, 0x5b9cca4f, 0x682e6ff3,
   0x748f82ee, 0x78a5636f, 0x84c87814, 0x8cc70208,
   0x90befffa, 0xa4506ceb, 0xbef9a3f7, 0xc67178f2]

/-- The eight words that mixing works on. -/
structure State where
  (a b c d e f g h : UInt32)

/-- The state before the first block. -/
def State.initial : State :=
  ⟨0x6a09e667, 0xbb67ae85, 0x3c6ef372, 0xa54ff53a,
   0x510e527f, 0x9b05688c, 0x1f83d9ab, 0x5be0cd19⟩

/-- One round with a constant and a word of the block. -/
def State.round (s : State) (k w : UInt32) : State :=
  let t₁ := s.h + (rotr s.e 6 ^^^ rotr s.e 11 ^^^ rotr s.e 25)
    + ((s.e &&& s.f) ^^^ (~~~s.e &&& s.g)) + k + w
  let t₂ := (rotr s.a 2 ^^^ rotr s.a 13 ^^^ rotr s.a 22)
    + ((s.a &&& s.b) ^^^ (s.a &&& s.c) ^^^ (s.b &&& s.c))
  ⟨t₁ + t₂, s.a, s.b, s.c, s.d + t₁, s.e, s.f, s.g⟩

/-- Word by word sum. -/
def State.add (s t : State) : State :=
  ⟨s.a + t.a, s.b + t.b, s.c + t.c, s.d + t.d,
   s.e + t.e, s.f + t.f, s.g + t.g, s.h + t.h⟩

/-- The words of a block, stretched by forty-eight more. -/
def schedule (block : Bytes) : Array UInt32 :=
  let words := (List.range 16).toArray.map fun i => bigEndian ((block.drop (4 * i)).take 4)
  (List.range 48).foldl (fun w i =>
    let x := w.getD (i + 1) 0
    let y := w.getD (i + 14) 0
    w.push (w.getD i 0 + (rotr x 7 ^^^ rotr x 18 ^^^ x >>> 3)
      + w.getD (i + 9) 0 + (rotr y 17 ^^^ rotr y 19 ^^^ y >>> 10))) words

/-- Mixes one block into the state. -/
def State.absorb (s : State) (block : Bytes) : State :=
  s.add ((roundConstants.zip (schedule block).toList).foldl
    (fun t (k, w) => t.round k w) s)

/-- Mixes a number of blocks into the state. -/
def State.absorbAll : (blocks : Nat) → State → Bytes → State
  | 0, s, _ => s
  | blocks + 1, s, bytes => absorbAll blocks (s.absorb (bytes.take 64)) (bytes.drop 64)

/-- The thirty-two bytes of a state. -/
def State.toBytes (s : State) : Bytes :=
  [s.a, s.b, s.c, s.d, s.e, s.f, s.g, s.h].flatMap fun w =>
    (toLittleEndian 4 w.toNat).reverse

/-- The SHA-256 digest of a byte string. -/
def sha256 (bytes : Bytes) : Bytes :=
  let padded := bytes ++ padding bytes.length
  (State.absorbAll (padded.length / 64) .initial padded).toBytes

end DiskKeys.Digest
