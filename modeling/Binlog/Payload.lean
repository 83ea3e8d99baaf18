import Binlog.Header
import Binlog.Event.UserVar
import Binlog.Event.File
import Binlog.Event.Session
import Binlog.Event.FormatDescription
import Binlog.Event.Gtid
import Binlog.Event.RowsText
import Binlog.Event.Mariadb

/-!
# Payloads

What an event holds beside its header. The type code picks the decoder (`EventKind.ofType`); an
event of a type without one is passed over, and only its framing is known.

Some kinds keep all that was read. `Payload.encode?` gives the bytes of these; other kinds read text
that need not be valid, or drop what they do not need.
-/

namespace Binlog

/-! ## Kinds -/

/-- The kinds of events that are told apart once decoded. -/
inductive EventKind where
  | query
  | stop
  | rotate
  | intvar
  | rand
  | userVar
  | formatDescription
  | xid
  | beginLoad
  | executeLoad
  | heartbeat
  | rowsQuery
  | gtid
  | anonymousGtid
  | previousGtids
  | xaPrepare
  | annotateRows
  | binlogCheckpoint
  | domainGtid
  | domainGtidList
  | startEncryption
  /-- All types without a decoder. -/
  | notImplemented
  deriving DecidableEq

namespace EventKind

/-- The kind that an event of a type decodes to. -/
def ofType : EventType → EventKind
  | .query => query
  | .stop => stop
  | .rotate => rotate
  | .intvar => intvar
  | .rand => rand
  | .userVar => userVar
  | .formatDescription => formatDescription
  | .xid => xid
  | .beginLoadQuery => beginLoad
  | .executeLoadQuery => executeLoad
  | .heartbeat => heartbeat
  | .rowsQuery => rowsQuery
  | .gtid => gtid
  | .anonymousGtid => anonymousGtid
  | .previousGtids => previousGtids
  | .xaPrepare => xaPrepare
  | .mariadbAnnotateRows => annotateRows
  | .mariadbBinlogCheckpoint => binlogCheckpoint
  | .mariadbGtid => domainGtid
  | .mariadbGtidList => domainGtidList
  | .mariadbStartEncryption => startEncryption
  | _ => notImplemented

/-- The name shown for a kind. -/
def name : EventKind → String
  | query => "QueryEvent"
  | stop => "StopEvent"
  | rotate => "RotateEvent"
  | intvar => "IntvarEvent"
  | rand => "RandEvent"
  | userVar => "UserVarEvent"
  | formatDescription => "FormatDescriptionEvent"
  | xid => "XidEvent"
  | beginLoad => "BeginLoadQueryEvent"
  | executeLoad => "ExecuteLoadQueryEvent"
  | heartbeat => "HeartbeatLogEvent"
  | rowsQuery => "RowsQueryLogEvent"
  | gtid => "GtidLogEvent"
  | anonymousGtid => "AnonymousGtidLogEvent"
  | previousGtids => "PreviousGtidsLogEvent"
  | xaPrepare => "XaPrepareLogEvent"
  | annotateRows => "MariadbAnnotateRowsEvent"
  | binlogCheckpoint => "MariadbBinlogCheckpointEvent"
  | domainGtid => "MariadbGtidEvent"
  | domainGtidList => "MariadbGtidListEvent"
  | startEncryption => "MariadbStartEncryptionEvent"
  | notImplemented => "NotImplementedEvent"

end EventKind

/-! ## Payloads -/

/-- What an event holds. -/
inductive Payload where
  | query (d : Query)
  | stop
  | rotate (d : Rotate)
  | intvar (d : Intvar)
  | rand (d : Rand)
  | userVar (d : UserVar)
  | formatDescription (d : FormatDescription)
  | xid (d : Xid)
  | beginLoad (d : BeginLoad)
  | executeLoad (d : ExecuteLoad)
  | heartbeat (d : Heartbeat)
  | rowsQuery (d : RowsQuery)
  | gtid (d : GtidEvent)
  | anonymousGtid (d : GtidEvent)
  | previousGtids (d : PreviousGtids)
  | xaPrepare (d : XaPrepare)
  | annotateRows (d : AnnotateRows)
  | binlogCheckpoint (d : BinlogCheckpoint)
  | domainGtid (d : DomainGtidEvent)
  | domainGtidList (d : DomainGtidList)
  | startEncryption (d : StartEncryption)
  | notImplemented
  deriving DecidableEq

namespace Payload

/-- The kind of a payload. -/
def kind : Payload → EventKind
  | query _ => .query
  | stop => .stop
  | rotate _ => .rotate
  | intvar _ => .intvar
  | rand _ => .rand
  | userVar _ => .userVar
  | formatDescription _ => .formatDescription
  | xid _ => .xid
  | beginLoad _ => .beginLoad
  | executeLoad _ => .executeLoad
  | heartbeat _ => .heartbeat
  | rowsQuery _ => .rowsQuery
  | gtid _ => .gtid
  | anonymousGtid _ => .anonymousGtid
  | previousGtids _ => .previousGtids
  | xaPrepare _ => .xaPrepare
  | annotateRows _ => .annotateRows
  | binlogCheckpoint _ => .binlogCheckpoint
  | domainGtid _ => .domainGtid
  | domainGtidList _ => .domainGtidList
  | startEncryption _ => .startEncryption
  | notImplemented => .notImplemented

/-- Reads a payload of a kind. The server in the header and the version of the servers that write
the log are what some layouts depend on. -/
def read {σ : Type} [ByteSource σ] (server : UInt32) (version : Option ServerVersion) :
    EventKind → Reader σ DecodeError Payload
  | .query => query <$> Query.read
  | .stop => return stop
  | .rotate => rotate <$> Rotate.read
  | .intvar => intvar <$> Intvar.read
  | .rand => rand <$> Rand.read
  | .userVar => userVar <$> UserVar.read
  | .formatDescription => formatDescription <$> FormatDescription.read
  | .xid => xid <$> Xid.read
  | .beginLoad => beginLoad <$> BeginLoad.read
  | .executeLoad => executeLoad <$> ExecuteLoad.read
  | .heartbeat => heartbeat <$> Heartbeat.read
  | .rowsQuery => rowsQuery <$> RowsQuery.read
  | .gtid => gtid <$> GtidEvent.read version
  | .anonymousGtid => anonymousGtid <$> GtidEvent.read version
  | .previousGtids => previousGtids <$> PreviousGtids.read
  | .xaPrepare => xaPrepare <$> XaPrepare.read
  | .annotateRows => annotateRows <$> AnnotateRows.read
  | .binlogCheckpoint => binlogCheckpoint <$> BinlogCheckpoint.read
  | .domainGtid => domainGtid <$> DomainGtidEvent.read server
  | .domainGtidList => domainGtidList <$> DomainGtidList.read
  | .startEncryption => startEncryption <$> StartEncryption.read
  | .notImplemented => do
    let _ ← Reader.rest
    return notImplemented

/-- The bytes of a payload that keeps all of them, `size` in number. Only an integer needs to be
told how many there are: its value takes those that its key leaves. -/
def encode? (size : Nat) : Payload → Option Bytes
  | stop => some []
  | rotate d => some d.encode
  | intvar d => some (d.encode (size - 1))
  | rand d => some d.encode
  | formatDescription d => some d.encode
  | xid d => some d.encode
  | beginLoad d => some d.encode
  | heartbeat d => some d.encode
  | annotateRows d => some d.encode
  | binlogCheckpoint d => some d.encode
  | domainGtidList d => some d.encode
  | startEncryption d => some d.encode
  | _ => none

end Payload

end Binlog
