import Binlog.Error
import Binlog.Text.Digits

/-!
# Packed decimals

A decimal of `precision` digits, `scale` of them behind the point, is cut into groups of nine
digits, counted from the point in both directions. The outermost group on either side may have
fewer digits. A group is a big-endian number in the fewest bytes that hold every number of its
digits.

**Sign.** The groups of a positive number stand in a row with the top bit of the first byte
flipped, so it is set. A negative number is the complement of that, so the bit is clear. Blocks of
the same layout then sort as the numbers do.

**Text.** `Decimal.text` shows each group with all its digits, drops zeros in front of the number
and keeps the declared number of places. A group that holds more than its digits can, as only a
damaged block does, is shown in full.
-/

namespace Binlog

/-- A decimal as its groups of digits. -/
structure Decimal where
  precision : Nat
  scale : Nat
  negative : Bool
  /-- The groups before the point, of which the first may be a partial one. -/
  integer : List Nat
  /-- The groups behind the point, of which the last may be a partial one. -/
  fraction : List Nat
  deriving DecidableEq

namespace Decimal

/-! ## Layout -/

/-- The greatest number of digits. -/
def maxPrecision : Nat := 65

/-- The greatest number of digits behind the point. -/
def maxScale : Nat := 30

/-- Whether a decimal may have this many digits. -/
def Admitted (precision scale : Nat) : Prop :=
  1 ≤ precision ∧ precision ≤ maxPrecision ∧ scale ≤ maxScale ∧ scale ≤ precision

instance (precision scale : Nat) : Decidable (Admitted precision scale) :=
  inferInstanceAs (Decidable (_ ∧ _))

/-- The bytes of a group of at most nine digits. -/
def groupWidth (digits : Nat) : Nat := min 4 ((digits + 1) / 2)

/-- The group that is left when `digits` digits are cut into nines. -/
def shortGroup (digits : Nat) : List Nat := if digits % 9 = 0 then [] else [digits % 9]

/-- How many digits each group before the point has. -/
def integerLayout (precision scale : Nat) : List Nat :=
  shortGroup (precision - scale) ++ List.replicate ((precision - scale) / 9) 9

/-- How many digits each group behind the point has. -/
def fractionLayout (scale : Nat) : List Nat := List.replicate (scale / 9) 9 ++ shortGroup scale

/-- The bytes of a row of groups. -/
def layoutSize (layout : List Nat) : Nat := (layout.map groupWidth).foldr (· + ·) 0

/-- The bytes of a packed decimal. -/
def size (precision scale : Nat) : Nat :=
  layoutSize (integerLayout precision scale) + layoutSize (fractionLayout scale)

/-! ## Reading -/

/-- The numbers of a row of groups. -/
def groups : (layout : List Nat) → Bytes → List Nat
  | [], _ => []
  | digits :: layout, bs =>
    Bytes.toNatBE (bs.take (groupWidth digits)) :: groups layout (bs.drop (groupWidth digits))

/-- The block with the top bit of its first byte flipped. -/
def flipTop : Bytes → Bytes
  | [] => []
  | b :: rest => (b ^^^ 0x80) :: rest

/-- The block with every bit flipped. -/
def complement (block : Bytes) : Bytes := block.map (· ^^^ 0xff)

/-- Whether a block is that of a negative number. -/
def isNegative : Bytes → Bool
  | [] => false
  | b :: _ => b &&& 0x80 == 0

/-- The groups of a block as they are without the sign. -/
def magnitude (block : Bytes) : Bytes :=
  if isNegative block then complement (flipTop block) else flipTop block

/-- The decimal that a block of the right size is. -/
def ofBlock (precision scale : Nat) (block : Bytes) : Decimal where
  precision := precision
  scale := scale
  negative := isNegative block
  integer := groups (integerLayout precision scale) (magnitude block)
  fraction := groups (fractionLayout scale)
    ((magnitude block).drop (layoutSize (integerLayout precision scale)))

/-- Reads a packed decimal. Bytes that do not suffice are a malformed decimal and stay unread. -/
def read {σ : Type} [ByteSource σ] (precision scale : Nat) : Reader σ DecodeError Decimal := do
  if Admitted precision scale then
    let left ← Reader.left
    if left < size precision scale then
      throw (.malformedDecimal (.tooShort precision scale (size precision scale) left))
    else
      return ofBlock precision scale (← Reader.take (size precision scale))
  else
    throw (.malformedDecimal (.outOfRange precision scale))

/-! ## Text and value -/

/-- The digits of a row of groups. -/
def groupDigits (layout groups : List Nat) : List Char :=
  (layout.zip groups).flatMap fun (digits, group) => Digits.padded digits group

/-- The digits before the point: without leading zeros, and at least one. -/
def integerDigits (d : Decimal) : List Char :=
  match (groupDigits (integerLayout d.precision d.scale) d.integer).dropWhile (· == '0') with
  | [] => ['0']
  | cs => cs

/-- The digits behind the point. -/
def fractionDigits (d : Decimal) : List Char := groupDigits (fractionLayout d.scale) d.fraction

/-- The number as text. -/
def chars (d : Decimal) : List Char :=
  (if d.negative then ['-'] else []) ++ d.integerDigits ++
    (if d.scale = 0 then [] else '.' :: d.fractionDigits)

/-- The number as text. -/
def text (d : Decimal) : String := .ofList d.chars

example : (ofBlock 5 2 [0x7f, 0x84, 0xd2]).chars = "-123.45".toList := by decide +kernel

/-- An integer over a power of ten. -/
structure Scaled where
  unscaled : Int
  scale : Nat
  deriving DecidableEq

/-- The number that the text denotes, with as many places as the text has. -/
def toScaled (d : Decimal) : Scaled :=
  let places := if d.scale = 0 then [] else d.fractionDigits
  let magnitude : Int := Digits.value (d.integerDigits ++ places)
  ⟨if d.negative then -magnitude else magnitude, places.length⟩

end Decimal

end Binlog
