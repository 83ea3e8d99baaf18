import Binlog.Power

/-!
# Decimal digits

Natural numbers written to the base ten, plainly or filled up with zeros to a given width.
-/

namespace Binlog.Digits

/-- The digits of `n`, without leading zeros; zero is one digit. -/
def chars (n : Nat) : List Char := Nat.toDigits 10 n

/-- The digits of `n`, filled up to `width` with zeros in front. A longer number is not cut. -/
def padded (width n : Nat) : List Char :=
  List.replicate (width - (chars n).length) '0' ++ chars n

/-- The number that digits are written for. -/
def value (cs : List Char) : Nat := Nat.ofDigitChars 10 cs 0

/-- The digits of an integer behind the sign of a negative one. -/
def signed (n : Int) : List Char :=
  match n with
  | .ofNat n => chars n
  | .negSucc n => '-' :: chars (n + 1)

end Binlog.Digits
