import Binlog.Error
import Binlog.ServerVersion

/-!
# Format descriptions

The first event of a log file tells which server wrote it and how: the version, the length of each
event type's fixed part, and whether the events end with a checksum.

**Two generations.** A server that knows checksums writes one more byte, the algorithm, behind the
table of lengths. Since the table holds an entry for the format description itself, its length can
be read off that entry: 57 bytes stand before the table, and the entry is their sum with the
table's length. `FormatDescription.tableLength` does so for the body. Whether the event has a
checksum of its own has to be known before the body is cut out; `FormatDescription.peekAlgorithm`
finds that in the data with the checksum still there.
-/

namespace Binlog

/-- How a log file is written. -/
structure FormatDescription where
  binlogVersion : UInt16
  /-- The version text as the server gives it. -/
  serverVersion : String
  version : ServerVersion
  createTimestamp : UInt32
  headerLength : UInt8
  postHeaderLengths : Bytes
  checksumAlgorithm : Option UInt8
  deriving DecidableEq

namespace FormatDescription

/-- The number of bytes in front of the table of lengths. -/
def fixedLength : Nat := 57

/-- The place of the format description's own entry in the table. -/
def ownEntry : Nat := 14

/-- The number of bytes that hold the version text. -/
def versionLength : Nat := 50

/-- The algorithm byte for CRC-32. -/
def crc32Algorithm : UInt8 := 1

/-- The algorithm byte of an event without a checksum. -/
def undefinedAlgorithm : UInt8 := 255

/-- Whether the events that follow end with a CRC-32. -/
def checksumEnabled (f : FormatDescription) : Bool := f.checksumAlgorithm == some crc32Algorithm

/-- The bytes without the NULs at their end. -/
def trimNul (bs : Bytes) : Bytes := (bs.reverse.dropWhile (· == 0)).reverse

/-- The length of the table at the front of the bytes: what its own entry says if the bytes suffice
for it, else all of them. -/
def tableLength (bs : Bytes) : Nat :=
  match bs[ownEntry]? with
  | some n =>
    if fixedLength ≤ n.toNat ∧ n.toNat - fixedLength ≤ bs.length then n.toNat - fixedLength
    else bs.length
  | none => bs.length

/-- The algorithm byte in data that ends with a checksum of four bytes. -/
def peekAlgorithm (data : Bytes) : Option UInt8 := do
  let n ← data[fixedLength + ownEntry]?
  if fixedLength ≤ n.toNat ∧ data.length = n.toNat + 1 + 4 then data[n.toNat]? else none

/-- Reads a format description, without a checksum behind it. -/
def read {σ : Type} [ByteSource σ] : Reader σ DecodeError FormatDescription := do
  let binlogVersion ← Reader.u16
  let serverVersion ← Reader.strictText (trimNul (← Reader.take versionLength))
  match ServerVersion.ofText? serverVersion with
  | none => throw (.invalidServerVersion serverVersion)
  | some version =>
    let createTimestamp ← Reader.u32
    let headerLength ← Reader.u8
    let postHeaderLengths ← Reader.take (tableLength (← Reader.unread))
    let checksumAlgorithm ← if ← Reader.hasMore then some <$> Reader.u8 else pure none
    return { binlogVersion, serverVersion, version, createTimestamp, headerLength,
             postHeaderLengths, checksumAlgorithm }

/-- The bytes of a format description, with NULs behind the version text. -/
def encode (f : FormatDescription) : Bytes :=
  let text := Utf8.encode f.serverVersion
  Bytes.ofNatLE 2 f.binlogVersion.toNat ++
    text ++ List.replicate (versionLength - text.length) 0 ++
    Bytes.ofNatLE 4 f.createTimestamp.toNat ++ f.headerLength :: f.postHeaderLengths ++
    f.checksumAlgorithm.toList

end FormatDescription

end Binlog
