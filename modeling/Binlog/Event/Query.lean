import Binlog.Event.StatusVars

/-!
# Statements

A query event reports a statement: who ran it and how it went (`QueryHead`), then the settings it
ran under, its schema and its text (`Statement`). The lengths of settings and schema stand in the
head, and the text takes what is left. The settings are read from their own block, so an entry that
runs over the block's end is an underrun, whatever follows.

**Loaded files.** A file loaded into a table is logged in blocks, of which the first event has the
content (`BeginLoad`) and the last one is a statement that also tells which file it loads
(`ExecuteLoad`). Its variable part is that of a query.
-/

namespace Binlog

/-! ## Parts -/

/-- Who ran a statement and how it went. -/
structure QueryHead where
  slaveProxyId : UInt32
  execTime : UInt32
  schemaLength : UInt8
  errorCode : UInt16
  statusVarsLength : UInt16
  deriving DecidableEq

/-- A statement with the settings and the schema it ran under. -/
structure Statement where
  statusVars : StatusVars
  schema : String
  text : String
  deriving DecidableEq

/-- Runs a reader on bytes of their own; its error is the error. -/
def Reader.within {σ ε α : Type} (bs : Bytes) (r : Reader Bytes ε α) : Reader σ ε α :=
  match r bs with
  | .ok a _ => return a
  | .error e _ => throw e

variable {σ : Type} [ByteSource σ]

/-- Reads the head. -/
def QueryHead.read {ε : Type} [OfReadError ε] : Reader σ ε QueryHead := do
  let slaveProxyId ← Reader.u32
  let execTime ← Reader.u32
  let schemaLength ← Reader.u8
  let errorCode ← Reader.u16
  let statusVarsLength ← Reader.u16
  return { slaveProxyId, execTime, schemaLength, errorCode, statusVarsLength }

/-- Reads what follows the heads. A byte of any value ends the schema; the text need not be valid
UTF-8. -/
def Statement.read (head : QueryHead) : Reader σ DecodeError Statement := do
  let block ← Reader.take head.statusVarsLength.toNat
  let statusVars ← Reader.within block StatusVars.read
  let schema ← Reader.strictText (← Reader.take head.schemaLength.toNat)
  Reader.skip 1
  let text ← Reader.rest
  return { statusVars, schema, text := Utf8.decodeLossy text }

/-! ## Queries -/

/-- A statement that was run. -/
structure Query where
  head : QueryHead
  statement : Statement
  deriving DecidableEq

/-- Reads a query. -/
def Query.read : Reader σ DecodeError Query := do
  let head ← QueryHead.read
  let statement ← Statement.read head
  return { head, statement }

/-! ## Loaded files -/

/-- The first block of a file. -/
structure BeginLoad where
  fileId : UInt32
  block : Bytes
  deriving DecidableEq

/-- Reads the first block of a file. -/
def BeginLoad.read {ε : Type} [OfReadError ε] : Reader σ ε BeginLoad := do
  let fileId ← Reader.u32
  let block ← Reader.rest
  return { fileId, block }

/-- The bytes of the first block of a file. -/
def BeginLoad.encode (b : BeginLoad) : Bytes := Bytes.ofNatLE 4 b.fileId.toNat ++ b.block

/-- Which file a statement loads, and where its name stands in the text. -/
structure LoadedFile where
  fileId : UInt32
  startPosition : UInt32
  endPosition : UInt32
  duplicateHandling : UInt8
  deriving DecidableEq

/-- Reads which file a statement loads. -/
def LoadedFile.read {ε : Type} [OfReadError ε] : Reader σ ε LoadedFile := do
  let fileId ← Reader.u32
  let startPosition ← Reader.u32
  let endPosition ← Reader.u32
  let duplicateHandling ← Reader.u8
  return { fileId, startPosition, endPosition, duplicateHandling }

/-- A statement that loads a file. -/
structure ExecuteLoad where
  head : QueryHead
  file : LoadedFile
  statement : Statement
  deriving DecidableEq

/-- Reads a statement that loads a file. -/
def ExecuteLoad.read : Reader σ DecodeError ExecuteLoad := do
  let head ← QueryHead.read
  let file ← LoadedFile.read
  let statement ← Statement.read head
  return { head, file, statement }

end Binlog
