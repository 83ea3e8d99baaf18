import Binlog.Payload

/-!
# Events

A decoded event: its payload together with the header, the checksum that was found behind the body,
the verdict on it, and the sizes. `Framed` is the same for one kind of data alone, which an event
can be converted to (`Event.convert`).
-/

namespace Binlog

/-! ## Framed data -/

/-- The verdict on a checksum. -/
inductive ChecksumState where
  /-- There is none, or it is not to be verified. -/
  | notChecked
  | valid
  | invalid
  deriving DecidableEq

/-- The name shown for a verdict. -/
def ChecksumState.name : ChecksumState → String
  | notChecked => "NotChecked"
  | valid => "Valid"
  | invalid => "Invalid"

/-- Data with the frame that it came in. -/
structure Framed (δ : Type) where
  header : Header
  data : δ
  /-- The checksum behind the body. -/
  crc32 : Option UInt32
  checksum : ChecksumState
  /-- The length of the body. -/
  eventSize : Nat
  /-- How much of the body the decoder used. -/
  bytesConsumed : Nat
  deriving DecidableEq

/-- The same frame around other data. -/
def Framed.withData {δ δ' : Type} (e : Framed δ) (data : δ') : Framed δ' :=
  ⟨e.header, data, e.crc32, e.checksum, e.eventSize, e.bytesConsumed⟩

/-- A decoded event. -/
abbrev Event := Framed Payload

namespace Event

/-- The name of what was decoded. -/
def name (e : Event) : String := e.data.kind.name

/-- What the header says that the event reports, whether that can be decoded or not. -/
def eventType (e : Event) : EventType := e.header.eventType

/-- The bytes of an event whose payload keeps all of them. -/
def encode? (e : Event) : Option Bytes :=
  (e.data.encode? e.eventSize).map fun body =>
    e.header.encode ++ body ++ (e.crc32.map fun n => Bytes.ofNatLE 4 n.toNat).getD []

end Event

/-! ## Conversion -/

/-- The kinds of data that an event can be converted to. An anonymous transaction has the data of a
named one. -/
inductive DataKind where
  | query
  | stop
  | rotate
  | intvar
  | rand
  | userVar
  | formatDescription
  | xid
  | beginLoad
  | executeLoad
  | heartbeat
  | rowsQuery
  | gtid
  | previousGtids
  | xaPrepare
  | annotateRows
  | binlogCheckpoint
  | domainGtid
  | domainGtidList
  | startEncryption
  | notImplemented
  deriving DecidableEq

namespace DataKind

/-- The type of the data. -/
abbrev Data : DataKind → Type
  | query => Query
  | stop => Unit
  | rotate => Rotate
  | intvar => Intvar
  | rand => Rand
  | userVar => UserVar
  | formatDescription => FormatDescription
  | xid => Xid
  | beginLoad => BeginLoad
  | executeLoad => ExecuteLoad
  | heartbeat => Heartbeat
  | rowsQuery => RowsQuery
  | gtid => GtidEvent
  | previousGtids => PreviousGtids
  | xaPrepare => XaPrepare
  | annotateRows => AnnotateRows
  | binlogCheckpoint => BinlogCheckpoint
  | domainGtid => DomainGtidEvent
  | domainGtidList => DomainGtidList
  | startEncryption => StartEncryption
  | notImplemented => Unit

/-- The name shown for a kind of data. -/
def name : DataKind → String
  | query => "QueryData"
  | stop => "StopData"
  | rotate => "RotateData"
  | intvar => "IntvarData"
  | rand => "RandData"
  | userVar => "UserVarData"
  | formatDescription => "FormatDescriptionData"
  | xid => "XidData"
  | beginLoad => "BeginLoadQueryData"
  | executeLoad => "ExecuteLoadQueryData"
  | heartbeat => "HeartbeatData"
  | rowsQuery => "RowsQueryData"
  | gtid => "GtidLogData"
  | previousGtids => "PreviousGtidsLogData"
  | xaPrepare => "XaPrepareData"
  | annotateRows => "MariadbAnnotateRowsData"
  | binlogCheckpoint => "MariadbBinlogCheckpointData"
  | domainGtid => "MariadbGtidData"
  | domainGtidList => "MariadbGtidListData"
  | startEncryption => "MariadbStartEncryptionData"
  | notImplemented => "NotImplementedData"

/-- All kinds of data. -/
def all : List DataKind :=
  [query, stop, rotate, intvar, rand, userVar, formatDescription, xid, beginLoad, executeLoad,
    heartbeat, rowsQuery, gtid, previousGtids, xaPrepare, annotateRows, binlogCheckpoint,
    domainGtid, domainGtidList, startEncryption, notImplemented]

/-- The data of this kind that a payload is. -/
def select? : (k : DataKind) → Payload → Option k.Data
  | query, .query d => some d
  | stop, .stop => some ()
  | rotate, .rotate d => some d
  | intvar, .intvar d => some d
  | rand, .rand d => some d
  | userVar, .userVar d => some d
  | formatDescription, .formatDescription d => some d
  | xid, .xid d => some d
  | beginLoad, .beginLoad d => some d
  | executeLoad, .executeLoad d => some d
  | heartbeat, .heartbeat d => some d
  | rowsQuery, .rowsQuery d => some d
  | gtid, .gtid d => some d
  | gtid, .anonymousGtid d => some d
  | previousGtids, .previousGtids d => some d
  | xaPrepare, .xaPrepare d => some d
  | annotateRows, .annotateRows d => some d
  | binlogCheckpoint, .binlogCheckpoint d => some d
  | domainGtid, .domainGtid d => some d
  | domainGtidList, .domainGtidList d => some d
  | startEncryption, .startEncryption d => some d
  | notImplemented, .notImplemented => some ()
  | _, _ => none

end DataKind

/-- An event was asked for data that it does not hold. -/
structure ConversionError where
  source : EventKind
  target : DataKind
  deriving DecidableEq

/-- The text shown to a user. -/
def ConversionError.message (e : ConversionError) : String :=
  s!"binlog event error: invalid conversion from {e.source.name} to {e.target.name}"

/-- The framed data of one kind that an event holds. -/
def Event.convert (k : DataKind) (e : Event) : Except ConversionError (Framed k.Data) :=
  match k.select? e.data with
  | some data => .ok (e.withData data)
  | none => .error ⟨e.data.kind, k⟩

end Binlog
