import Binlog.Bytes.Reader
import Binlog.EventType
import Binlog.FlagTable

/-!
# Event headers

Every event starts with the same 19 bytes: when it was written, what it is, by whom, how long it is,
where the next one starts, and flags. All numbers are little-endian.

Flags that have no name here are kept, so a header that was read can be written again as it was;
the checksum of an event depends on that.
-/

namespace Binlog

/-- The fields that every event starts with. -/
structure Header where
  timestamp : UInt32
  typeCode : UInt8
  serverId : UInt32
  /-- The length of the whole event, header and footer included. -/
  eventLength : UInt32
  nextPosition : UInt32
  flags : UInt16
  deriving DecidableEq

namespace Header

/-- The number of bytes of a header. -/
def size : Nat := 19

/-- The named header flags. -/
def flagTable : FlagTable :=
  .ofNames ["BINLOG_IN_USE", "FORCED_ROTATE", "THREAD_SPECIFIC", "SUPRESS_USE",
    "UPDATE_TABLE_MAP_VERSION", "ARTIFICIAL", "RELAY_LOG", "IGNORABLE", "NO_FILTER", "MTS_ISOLATE"]

/-- What the event reports. -/
def eventType (h : Header) : EventType := .ofCode h.typeCode

/-- The number of bytes behind the header. -/
def dataLength (h : Header) : Nat := h.eventLength.toNat - size

/-- Reads a header. -/
def read {σ ε : Type} [ByteSource σ] [OfReadError ε] : Reader σ ε Header := do
  let timestamp ← Reader.u32
  let typeCode ← Reader.u8
  let serverId ← Reader.u32
  let eventLength ← Reader.u32
  let nextPosition ← Reader.u32
  let flags ← Reader.u16
  return { timestamp, typeCode, serverId, eventLength, nextPosition, flags }

/-- The bytes of a header. -/
def encode (h : Header) : Bytes :=
  Bytes.ofNatLE 4 h.timestamp.toNat ++ h.typeCode :: Bytes.ofNatLE 4 h.serverId.toNat ++
    Bytes.ofNatLE 4 h.eventLength.toNat ++ Bytes.ofNatLE 4 h.nextPosition.toNat ++
    Bytes.ofNatLE 2 h.flags.toNat

end Header

end Binlog
