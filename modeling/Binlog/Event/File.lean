import Binlog.Error

/-!
# Log files

Events that tell where in which file a log goes on: the next file (`Rotate`), the file a server is
at while there is nothing to send (`Heartbeat`), and the oldest file still needed for recovery
(`BinlogCheckpoint`). File names must be UTF-8.
-/

namespace Binlog

variable {σ : Type} [ByteSource σ]

/-- Where the log goes on. -/
structure Rotate where
  position : UInt64
  nextFile : String
  deriving DecidableEq

/-- Reads where the log goes on. -/
def Rotate.read : Reader σ DecodeError Rotate := do
  let position ← Reader.u64
  let nextFile ← Reader.strictText (← Reader.rest)
  return { position, nextFile }

/-- The bytes of where the log goes on. -/
def Rotate.encode (r : Rotate) : Bytes :=
  Bytes.ofNatLE 8 r.position.toNat ++ Utf8.encode r.nextFile

/-- A sign of life of a server, with the file it is at. -/
structure Heartbeat where
  file : String
  deriving DecidableEq

/-- Reads a sign of life. -/
def Heartbeat.read : Reader σ DecodeError Heartbeat := do
  let file ← Reader.strictText (← Reader.rest)
  return { file }

/-- The bytes of a sign of life. -/
def Heartbeat.encode (h : Heartbeat) : Bytes := Utf8.encode h.file

/-- The oldest file that recovery needs. -/
structure BinlogCheckpoint where
  file : String
  deriving DecidableEq

/-- Reads the oldest file that recovery needs; its name follows a length of four bytes. -/
def BinlogCheckpoint.read : Reader σ DecodeError BinlogCheckpoint := do
  let file ← Reader.strictText (← Reader.takePrefixed 4)
  return { file }

/-- The bytes of the oldest file that recovery needs. -/
def BinlogCheckpoint.encode (b : BinlogCheckpoint) : Bytes :=
  Bytes.ofNatLE 4 (Utf8.encode b.file).length ++ Utf8.encode b.file

end Binlog
