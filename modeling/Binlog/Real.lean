import Binlog.Text.Digits

/-!
# Real numbers as text

A binary64 number is given as its 64 bits. It stands for a rational number `m * 2 ^ q`, and all
rationals between it and halfway to its neighbours round to it.

**Shortest digits.** `Binary64.shortest` looks for the coarsest power of ten of which a multiple
rounds to the number, so that no decimal with fewer digits reads back, and takes the multiple
nearest to the number, the upper one of two equally near. All of it is exact arithmetic on natural
numbers.

**Style** (`Style`). Which exponents are written out in full is a decision of its own.
-/

namespace Binlog

/-- A positive rational number `mantissa * 2 ^ (exponent - 1074)`. -/
structure Binary64 where
  mantissa : Nat
  exponent : Nat
  deriving DecidableEq

namespace Binary64

/-! ## Shortest digits -/

/-- The distance to the lower end of the rounding interval, in quarters of the last place. Below a
power of two the neighbours lie half as far apart. -/
def lowerGap (x : Binary64) : Nat := if x.mantissa = 2 ^ 52 ∧ 0 < x.exponent then 1 else 2

/-- Whether a number is in the rounding interval, all in quarters of the last place over a common
denominator `unit`. The ends round to an even mantissa. -/
def rounds (x : Binary64) (unit n : Nat) : Bool :=
  let low := (4 * x.mantissa - x.lowerGap) * unit
  let high := (4 * x.mantissa + 2) * unit
  if x.mantissa % 2 = 0 then low ≤ n && n ≤ high else low < n && n < high

/-- The multiple of `10 ^ k` nearest to the number, as its factor, if it rounds to the number. -/
def nearest? (x : Binary64) (k : Int) : Option Nat :=
  let unit := 2 ^ x.exponent * 10 ^ (-k).toNat
  let step := 2 ^ 1076 * 10 ^ k.toNat
  let value := 4 * x.mantissa * unit
  let below := value / step
  let above := below + 1
  let lower := if x.rounds unit (below * step) then some below else none
  let upper := if x.rounds unit (above * step) then some above else none
  match lower, upper with
  | some _, some _ => if above * step - value ≤ value - below * step then upper else lower
  | some _, none => lower
  | none, _ => upper

/-- A number as a natural number times a power of ten. -/
structure Decimal10 where
  digits : Nat
  exponent : Int
  deriving DecidableEq

/-- The exponent of the coarsest power of ten that is tried, above every number. -/
def coarsest : Int := 309

/-- The number of powers of ten that are tried; the last is finer than any number needs. -/
def tried : Nat := 650

/-- The shortest decimal that rounds to the number. -/
def shortest (x : Binary64) : Decimal10 :=
  let candidate (i : Nat) : Option Decimal10 :=
    (x.nearest? (coarsest - i)).map fun digits => ⟨digits, coarsest - i⟩
  ((List.range tried).findSome? candidate).getD ⟨0, 0⟩

end Binary64

/-! ## Notation -/

/-- The exponents, low and high, between which a number is written out in full. -/
structure Style where
  low : Int
  high : Int

namespace Real

/-- Numbers from 0.0001 to below 10^16 are written out. -/
def plain : Style := ⟨-4, 15⟩

/-- Digits with the point after the first `whole` of them, and at least one on either side. -/
def positional (cs : List Char) (whole : Int) : List Char :=
  if whole ≤ 0 then '0' :: '.' :: List.replicate (-whole).toNat '0' ++ cs
  else
    let n := whole.toNat
    let places := if cs.length ≤ n then ['0'] else cs.drop n
    cs.take n ++ List.replicate (n - cs.length) '0' ++ '.' :: places

/-- One digit before the point, and the power of ten behind an `e`. -/
def scientific (cs : List Char) (exponent : Int) : List Char :=
  let places := cs.drop 1
  cs.take 1 ++ (if places.isEmpty then [] else '.' :: places) ++ 'e' :: Digits.signed exponent

/-- The text of a positive number. -/
def magnitudeChars (style : Style) (x : Binary64) : List Char :=
  let d := x.shortest
  let cs := Digits.chars d.digits
  let exponent := d.exponent + cs.length - 1
  if style.low ≤ exponent ∧ exponent ≤ style.high then positional cs (exponent + 1)
  else scientific cs exponent

/-- Whether the bits are those of an infinity or of no number. -/
def isFinite (bits : UInt64) : Bool := bits.toNat / 2 ^ 52 % 2 ^ 11 != 2047

/-- The text of a number, given as its bits. -/
def chars (bits : UInt64) : List Char :=
  let sign := if bits.toNat / 2 ^ 63 = 0 then [] else ['-']
  let exponent := bits.toNat / 2 ^ 52 % 2 ^ 11
  let fraction := bits.toNat % 2 ^ 52
  if exponent = 2047 then
    if fraction = 0 then sign ++ ['i', 'n', 'f'] else ['N', 'a', 'N']
  else if exponent = 0 ∧ fraction = 0 then sign ++ ['0', '.', '0']
  else if exponent = 0 then sign ++ magnitudeChars plain ⟨fraction, 0⟩
  else sign ++ magnitudeChars plain ⟨2 ^ 52 + fraction, exponent - 1⟩

/-- The text of a number, given as its bits. -/
def text (bits : UInt64) : String := .ofList (chars bits)

example : chars 0x3ff0000000000000 = "1.0".toList := by decide +kernel
example : chars 0x3f1a36e2eb1c432d = "0.0001".toList := by decide +kernel
example : chars 0x4341c37937e08000 = "1e16".toList := by decide +kernel
example : chars 0x8000000000000001 = "-5e-324".toList := by decide +kernel

end Real

end Binlog
