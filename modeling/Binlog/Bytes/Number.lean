import Binlog.Power

/-!
# Numbers as bytes

A number of `w` bytes is its `w` digits to the base 256. In little-endian order the lowest digit
comes first, in big-endian order the highest.

**Formats** (`NumberFormat`). An order and a width. Widths of 3, 6 and 7 bytes are as good as the
powers of two: a log entry uses them to save space.

Main statements: `NumberFormat.decode_encode` (a number below the format's bound is read back) and
`NumberFormat.encode_decode` (so are the bytes).
-/

namespace Binlog

/-- A run of bytes. -/
abbrev Bytes := List UInt8

namespace Bytes

/-! ## Digits to the base 256 -/

/-- The number whose digits to the base 256 are the bytes, lowest first. -/
def toNatLE : Bytes → Nat
  | [] => 0
  | b :: rest => b.toNat + 256 * toNatLE rest

/-- The lowest `width` digits of `n` to the base 256, lowest first. -/
def ofNatLE : (width n : Nat) → Bytes
  | 0, _ => []
  | width + 1, n => UInt8.ofNat n :: ofNatLE width (n / 256)

/-- The number whose digits to the base 256 are the bytes, highest first. -/
def toNatBE (bs : Bytes) : Nat := toNatLE bs.reverse

/-- The lowest `width` digits of `n` to the base 256, highest first. -/
def ofNatBE (width n : Nat) : Bytes := (ofNatLE width n).reverse

@[simp] theorem length_ofNatLE (width n : Nat) : (ofNatLE width n).length = width := by
  induction width generalizing n <;> simp [ofNatLE, *]

theorem toNatLE_lt (bs : Bytes) : toNatLE bs < 256 ^ bs.length := by
  induction bs with
  | nil => simp [toNatLE]
  | cons b rest ih =>
    have hb := b.toNat_lt
    simp only [toNatLE, List.length_cons, Nat.pow_succ]
    omega

theorem toNatLE_ofNatLE (width n : Nat) (h : n < 256 ^ width) :
    toNatLE (ofNatLE width n) = n := by
  induction width generalizing n with
  | zero =>
    have : n = 0 := by simpa using h
    simp [ofNatLE, toNatLE, this]
  | succ width ih =>
    have hq : n / 256 < 256 ^ width := by
      rw [Nat.pow_succ] at h
      omega
    simp only [ofNatLE, toNatLE, ih _ hq, UInt8.toNat_ofNat']
    omega

theorem ofNatLE_toNatLE (bs : Bytes) : ofNatLE bs.length (toNatLE bs) = bs := by
  induction bs with
  | nil => rfl
  | cons b rest ih =>
    have hb := b.toNat_lt
    have hq : (b.toNat + 256 * toNatLE rest) / 256 = toNatLE rest := by omega
    have hr : UInt8.ofNat (b.toNat + 256 * toNatLE rest) = b := by
      apply UInt8.toNat.inj
      rw [UInt8.toNat_ofNat']
      omega
    simp only [List.length_cons, toNatLE, ofNatLE, hq, hr, ih]

end Bytes

/-! ## Formats -/

/-- Which digit comes first. -/
inductive ByteOrder where
  | little
  | big
  deriving DecidableEq

/-- An unsigned number of `width` bytes in the given order. -/
structure NumberFormat where
  order : ByteOrder
  width : Nat
  deriving DecidableEq

namespace NumberFormat

/-- A number of `width` bytes, lowest byte first. -/
def little (width : Nat) : NumberFormat := ⟨.little, width⟩

/-- A number of `width` bytes, highest byte first. -/
def big (width : Nat) : NumberFormat := ⟨.big, width⟩

/-- The first number too large for the format. -/
def bound (f : NumberFormat) : Nat := 256 ^ f.width

/-- The number written as `bs`. -/
def decode (f : NumberFormat) (bs : Bytes) : Nat :=
  match f.order with
  | .little => bs.toNatLE
  | .big => bs.toNatBE

/-- The bytes of `n`, of which a number beyond the bound loses the high ones. -/
def encode (f : NumberFormat) (n : Nat) : Bytes :=
  match f.order with
  | .little => .ofNatLE f.width n
  | .big => .ofNatBE f.width n

@[simp] theorem length_encode (f : NumberFormat) (n : Nat) : (f.encode n).length = f.width := by
  rcases f with ⟨_ | _, width⟩ <;> simp [encode, Bytes.ofNatBE]

theorem decode_lt (f : NumberFormat) (bs : Bytes) (h : bs.length = f.width) :
    f.decode bs < f.bound := by
  rcases f with ⟨_ | _, width⟩
  · simpa [decode, bound, h] using Bytes.toNatLE_lt bs
  · simpa [decode, bound, Bytes.toNatBE, h] using Bytes.toNatLE_lt bs.reverse

theorem decode_encode (f : NumberFormat) (n : Nat) (h : n < f.bound) :
    f.decode (f.encode n) = n := by
  rcases f with ⟨_ | _, width⟩
  · exact Bytes.toNatLE_ofNatLE width n h
  · simpa [decode, encode, Bytes.toNatBE, Bytes.ofNatBE] using Bytes.toNatLE_ofNatLE width n h

theorem encode_decode (f : NumberFormat) (bs : Bytes) (h : bs.length = f.width) :
    f.encode (f.decode bs) = bs := by
  rcases f with ⟨_ | _, width⟩ <;> obtain rfl : bs.length = width := h
  · exact Bytes.ofNatLE_toNatLE bs
  · simpa [decode, encode, Bytes.toNatBE, Bytes.ofNatBE] using
      congrArg List.reverse (Bytes.ofNatLE_toNatLE bs.reverse)

end NumberFormat

end Binlog
