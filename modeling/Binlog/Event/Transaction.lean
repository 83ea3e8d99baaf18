import Binlog.Error

/-!
# Ends of transactions

A transaction ends with its number in the storage engine (`Xid`), or, if it is part of a larger one
under a transaction manager, with being prepared under the manager's id (`XaPrepare`).
-/

namespace Binlog

variable {σ ε : Type} [ByteSource σ] [OfReadError ε]

/-- The commit of a transaction. -/
structure Xid where
  xid : UInt64
  deriving DecidableEq

/-- Reads the commit of a transaction. -/
def Xid.read : Reader σ ε Xid := do
  let xid ← Reader.u64
  return { xid }

/-- The bytes of the commit of a transaction. -/
def Xid.encode (x : Xid) : Bytes := Bytes.ofNatLE 8 x.xid.toNat

/-- The id that a transaction manager gives: a global part, and one for the branch. -/
structure XaId where
  formatId : UInt32
  globalPart : String
  branchPart : String
  deriving DecidableEq

namespace XaId

/-- Reads the parts of an id, given their lengths. They need not be valid UTF-8. -/
def readParts (formatId : UInt32) (globalLength branchLength : Nat) : Reader σ ε XaId := do
  let globalPart ← Reader.take globalLength
  let branchPart ← Reader.take branchLength
  return { formatId, globalPart := Utf8.decodeLossy globalPart,
           branchPart := Utf8.decodeLossy branchPart }

/-- The global part and the branch's part, with nothing between them. -/
def text (id : XaId) : String := id.globalPart ++ id.branchPart

end XaId

/-- A transaction that is prepared for its manager's decision. -/
structure XaPrepare where
  onePhase : Bool
  id : XaId
  deriving DecidableEq

/-- Reads a prepared transaction; the lengths have four bytes each. -/
def XaPrepare.read : Reader σ ε XaPrepare := do
  let onePhase ← Reader.u8
  let formatId ← Reader.u32
  let globalLength ← Reader.u32
  let branchLength ← Reader.u32
  let id ← XaId.readParts formatId globalLength.toNat branchLength.toNat
  return { onePhase := onePhase != 0, id }

end Binlog
