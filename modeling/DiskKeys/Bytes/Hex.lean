import DiskKeys.Bytes.Cursor

/-! # Hexadecimal text

    Two lower-case digits per byte, the high half first. -/

namespace DiskKeys.Hex

/-- The lower-case digit of a number below sixteen. -/
def digit (n : Nat) : Char :=
  if n < 10 then .ofNat (48 + n) else .ofNat (87 + n)

/-- The two digits of each byte in turn. -/
def encodeChars (bytes : Bytes) : List Char :=
  bytes.flatMap fun b => [digit (b.toNat / 16), digit (b.toNat % 16)]

/-- The hexadecimal text of bytes. -/
def encode (bytes : Bytes) : String :=
  .ofList (encodeChars bytes)

end DiskKeys.Hex
