import Binlog.Bytes.Number

/-!
# Base64

Three bytes are four digits to the base 64. One or two bytes at the end are two or three digits,
filled up with equals signs.
-/

namespace Binlog.Base64

/-- The digits in order. -/
def alphabet : List Char :=
  "ABCDEFGHIJKLMNOPQRSTUVWXYZabcdefghijklmnopqrstuvwxyz0123456789+/".toList

/-- The digit for the lowest six bits of `n`. -/
def digit (n : Nat) : Char := alphabet.getD (n % 64) '='

/-- The digits of a run of bytes. -/
def chars : Bytes → List Char
  | [] => []
  | [a] =>
    let n := a.toNat * 2 ^ 16
    [digit (n / 2 ^ 18), digit (n / 2 ^ 12), '=', '=']
  | [a, b] =>
    let n := a.toNat * 2 ^ 16 + b.toNat * 2 ^ 8
    [digit (n / 2 ^ 18), digit (n / 2 ^ 12), digit (n / 2 ^ 6), '=']
  | a :: b :: c :: rest =>
    let n := a.toNat * 2 ^ 16 + b.toNat * 2 ^ 8 + c.toNat
    digit (n / 2 ^ 18) :: digit (n / 2 ^ 12) :: digit (n / 2 ^ 6) :: digit n :: chars rest

/-- The text of a run of bytes. -/
def text (bs : Bytes) : String := .ofList (chars bs)

example : chars [0x66, 0x6f, 0x6f, 0x62] = "Zm9vYg==".toList := by decide

end Binlog.Base64
