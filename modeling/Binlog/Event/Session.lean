import Binlog.Bytes.Reader

/-!
# Values a statement draws on

Before a statement that uses them, the log gives the integers (`Intvar`) and the seeds of the
random generator (`Rand`) that it found in its session.
-/

namespace Binlog

variable {σ ε : Type} [ByteSource σ] [OfReadError ε]

/-! ## Integers -/

/-- What an integer is used for. -/
inductive IntvarKey where
  | invalid
  | lastInsertId
  | insertId
  | unknown (code : UInt8)
  deriving DecidableEq

/-- The use that a byte stands for. -/
def IntvarKey.ofCode (code : UInt8) : IntvarKey :=
  match code.toNat with
  | 0 => invalid
  | 1 => lastInsertId
  | 2 => insertId
  | _ => unknown code

/-- The byte that stands for a use. -/
def IntvarKey.code : IntvarKey → UInt8
  | invalid => 0
  | lastInsertId => 1
  | insertId => 2
  | unknown code => code

/-- An integer and its use. -/
structure Intvar where
  key : IntvarKey
  value : UInt64
  deriving DecidableEq

/-- Reads an integer: its lower half, and its upper half if as many bytes are left. -/
def Intvar.read : Reader σ ε Intvar := do
  let key ← Reader.u8
  let low ← Reader.u32
  let high ← if 4 ≤ (← Reader.left) then Reader.u32 else pure 0
  return { key := .ofCode key, value := .ofNat (low.toNat + 2 ^ 32 * high.toNat) }

/-- The bytes of an integer whose value takes `width` bytes, four or eight. -/
def Intvar.encode (width : Nat) (i : Intvar) : Bytes :=
  i.key.code :: Bytes.ofNatLE width i.value.toNat

/-! ## Seeds -/

/-- The seeds of the random generator. -/
structure Rand where
  seed1 : UInt64
  seed2 : UInt64
  deriving DecidableEq

/-- Reads the seeds. -/
def Rand.read : Reader σ ε Rand := do
  let seed1 ← Reader.u64
  let seed2 ← Reader.u64
  return { seed1, seed2 }

/-- The bytes of the seeds. -/
def Rand.encode (r : Rand) : Bytes :=
  Bytes.ofNatLE 8 r.seed1.toNat ++ Bytes.ofNatLE 8 r.seed2.toNat

end Binlog
