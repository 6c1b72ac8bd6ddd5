/-! # UTF-16

    A character below U+10000 is one unit of sixteen bits; any other is a
    pair of surrogates that carries ten bits in each half. -/

namespace DiskKeys.Text.Utf16

/-- The units of one character. -/
def charUnits (c : Char) : List UInt16 :=
  if c.toNat < 0x10000 then [.ofNat c.toNat]
  else
    let n := c.toNat - 0x10000
    [.ofNat (0xd800 + n / 0x400), .ofNat (0xdc00 + n % 0x400)]

/-- The units of a text. -/
def units (text : List Char) : List UInt16 :=
  text.flatMap charUnits

end DiskKeys.Text.Utf16
