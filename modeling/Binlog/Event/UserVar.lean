import Binlog.Event.Query
import Binlog.Decimal

/-!
# User variables

The value that a user variable had when a statement used it. A value that is not NULL stands in a
run of bytes of its own, in a form that its type byte fixes; behind it one byte of flags may follow.
An integer is unsigned if the lowest flag is set, so its sign is known only after its bytes.
-/

namespace Binlog

/-- The value of a variable. -/
inductive UserValue where
  | string (s : String)
  /-- A binary64 number, as its bits. -/
  | real (bits : UInt64)
  | int (n : Int64)
  | uint (n : UInt64)
  | decimal (d : Decimal)
  | row (bs : Bytes)
  /-- A value of a type that is not known. -/
  | unknown (bs : Bytes)
  deriving DecidableEq

/-- A value, the type and character set it is declared to have, and its flag. -/
structure TypedVar where
  valueType : UInt8
  charset : UInt32
  unsigned : Bool
  value : UserValue
  deriving DecidableEq

/-- A variable; no value is NULL. -/
structure UserVar where
  name : String
  value : Option TypedVar
  deriving DecidableEq

/-- The named flags of a variable. -/
def TypedVar.flagTable : FlagTable := .ofNames ["UNSIGNED"]

/-- The word of flags of a variable. -/
def TypedVar.flags (v : TypedVar) : UInt8 := if v.unsigned then 1 else 0

/-- Reads a value from its own bytes. -/
def UserValue.read (valueType : UInt8) (unsigned : Bool) : Reader Bytes DecodeError UserValue := do
  match valueType.toNat with
  | 0 => return .string (Utf8.decodeLossy (← Reader.rest))
  | 1 => return .real (← Reader.u64)
  | 2 => if unsigned then return .uint (← Reader.u64) else return .int (← Reader.i64)
  | 3 => return .row (← Reader.rest)
  | 4 =>
    let precision ← Reader.u8
    let scale ← Reader.u8
    return .decimal (← Decimal.read precision.toNat scale.toNat)
  | _ => return .unknown (← Reader.rest)

variable {σ : Type} [ByteSource σ]

/-- Reads a value with its type, character set and flags. -/
def TypedVar.read : Reader σ DecodeError TypedVar := do
  let valueType ← Reader.u8
  let charset ← Reader.u32
  let bs ← Reader.takePrefixed 4
  let flags ← if ← Reader.hasMore then Reader.u8 else pure 0
  let unsigned := flags &&& 1 != 0
  let value ← Reader.within bs (UserValue.read valueType unsigned)
  return { valueType, charset, unsigned, value }

/-- Reads a variable. -/
def UserVar.read : Reader σ DecodeError UserVar := do
  let name ← Reader.strictText (← Reader.takePrefixed 4)
  let isNull ← Reader.u8
  if isNull != 0 then
    return { name, value := none }
  else
    return { name, value := some (← TypedVar.read) }

end Binlog
