import Binlog.Text.Glyphless
import Binlog.Text.Hex

/-!
# Quoted text and bytes

Text is shown between double quotes. A character that would end the quote or show nothing is
escaped: some controls, the quote and the backslash by a letter or themselves behind a backslash,
other glyphless characters by their code point in braces.

Bytes are shown likewise behind a `b`; those outside printable ASCII are two hexadecimal digits.
-/

namespace Binlog.Text

/-- The escapes of one letter. -/
def escape? : Char → Option Char
  | '\x00' => some '0'
  | '\t' => some 't'
  | '\n' => some 'n'
  | '\r' => some 'r'
  | '"' => some '"'
  | '\\' => some '\\'
  | _ => none

/-- How a character stands in a quoted text. -/
def quotedChar (c : Char) : List Char :=
  match escape? c with
  | some e => ['\\', e]
  | none =>
    if isGlyphless c then
      ['\\', 'u', '\x7b'] ++ Nat.toDigits 16 c.toNat ++ ['\x7d']
    else [c]

/-- How a byte stands in quoted bytes. -/
def quotedByte (b : UInt8) : List Char :=
  match escape? (.ofNat b.toNat) with
  | some e => ['\\', e]
  | none => if 0x20 ≤ b ∧ b ≤ 0x7e then [.ofNat b.toNat] else '\\' :: 'x' :: Hex.ofByte b

/-- The text between quotes. -/
def quoted (s : String) : String := .ofList ('"' :: s.toList.flatMap quotedChar ++ ['"'])

/-- The bytes between quotes. -/
def quotedBytes (bs : Bytes) : String := .ofList ('b' :: '"' :: bs.flatMap quotedByte ++ ['"'])

end Binlog.Text
