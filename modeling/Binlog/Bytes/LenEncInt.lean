import Binlog.Bytes.Number

/-!
# Length-encoded integers

An integer below 251 is one byte. Larger ones follow a tag byte that tells their width: 2, 3 or 8
bytes, lowest first. Two more tags stand for an absent value and for an error.

The constructors are named for the length of the encoding, tag included.
-/

namespace Binlog

/-- A length-encoded integer in one of its written forms. -/
inductive LenEncInt where
  | null
  | err
  | len1 (n : UInt8)
  | len3 (n : UInt16)
  | len4 (n : UInt32)
  | len9 (n : UInt64)
  deriving DecidableEq

namespace LenEncInt

/-- The number stood for, if it is one. -/
def toUInt64? : LenEncInt → Option UInt64
  | null | err => none
  | len1 n => some n.toUInt64
  | len3 n => some n.toUInt64
  | len4 n => some n.toUInt64
  | len9 n => some n

/-- The shortest form of a number. -/
def ofUInt64 (n : UInt64) : LenEncInt :=
  if n < 0xfb then len1 n.toUInt8
  else if n ≤ 0xffff then len3 n.toUInt16
  else if n ≤ 0xffffff then len4 n.toUInt32
  else len9 n

/-- The payload of a form, as written. -/
def payload? : LenEncInt → Option Nat
  | null | err => none
  | len1 n => some n.toNat
  | len3 n => some n.toNat
  | len4 n => some n.toNat
  | len9 n => some n.toNat

/-- The name of a form. -/
def name : LenEncInt → String
  | null => "Null"
  | err => "Err"
  | len1 _ => "Len1"
  | len3 _ => "Len3"
  | len4 _ => "Len4"
  | len9 _ => "Len9"

/-- The written form: the tag, where there is one, then the payload. -/
def encode : LenEncInt → Bytes
  | null => [0xfb]
  | err => [0xff]
  | len1 n => [n]
  | len3 n => 0xfc :: (NumberFormat.little 2).encode n.toNat
  | len4 n => 0xfd :: (NumberFormat.little 3).encode n.toNat
  | len9 n => 0xfe :: (NumberFormat.little 8).encode n.toNat

end LenEncInt

end Binlog
