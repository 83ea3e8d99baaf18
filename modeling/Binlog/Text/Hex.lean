import Binlog.Bytes.Number

/-!
# Hexadecimal text

Two lower-case digits for each byte, the high one first.
-/

namespace Binlog.Hex

/-- The digit for the lowest four bits of `n`. -/
def digit (n : Nat) : Char := Nat.digitChar (n % 16)

/-- The two digits of a byte. -/
def ofByte (b : UInt8) : List Char := [digit (b.toNat / 16), digit b.toNat]

/-- The digits of a run of bytes. -/
def chars (bs : Bytes) : List Char := bs.flatMap ofByte

/-- The text of a run of bytes. -/
def text (bs : Bytes) : String := .ofList (chars bs)

end Binlog.Hex
