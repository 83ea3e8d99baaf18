import Binlog.Bytes.Number

/-!
# Event types

The type code in an event's header names what the event reports. Codes from 160 on belong to
MariaDB; a code that no server writes is `invalid`.
-/

namespace Binlog

/-- What an event reports. -/
inductive EventType where
  | unknown
  | startV3
  | query
  | stop
  | rotate
  | intvar
  | load
  | slave
  | createFile
  | appendBlock
  | execLoad
  | deleteFile
  | newLoad
  | rand
  | userVar
  | formatDescription
  | xid
  | beginLoadQuery
  | executeLoadQuery
  | tableMap
  | writeRowsV0
  | updateRowsV0
  | deleteRowsV0
  | writeRowsV1
  | updateRowsV1
  | deleteRowsV1
  | incident
  | heartbeat
  | ignorable
  | rowsQuery
  | writeRowsV2
  | updateRowsV2
  | deleteRowsV2
  | gtid
  | anonymousGtid
  | previousGtids
  | transactionContext
  | viewChange
  | xaPrepare
  | mariadbAnnotateRows
  | mariadbBinlogCheckpoint
  | mariadbGtid
  | mariadbGtidList
  | mariadbStartEncryption
  | invalid
  deriving DecidableEq

namespace EventType

/-- The type that a code stands for. -/
def ofCode (code : UInt8) : EventType :=
  match code.toNat with
  | 0 => unknown
  | 1 => startV3
  | 2 => query
  | 3 => stop
  | 4 => rotate
  | 5 => intvar
  | 6 => load
  | 7 => slave
  | 8 => createFile
  | 9 => appendBlock
  | 10 => execLoad
  | 11 => deleteFile
  | 12 => newLoad
  | 13 => rand
  | 14 => userVar
  | 15 => formatDescription
  | 16 => xid
  | 17 => beginLoadQuery
  | 18 => executeLoadQuery
  | 19 => tableMap
  | 20 => writeRowsV0
  | 21 => updateRowsV0
  | 22 => deleteRowsV0
  | 23 => writeRowsV1
  | 24 => updateRowsV1
  | 25 => deleteRowsV1
  | 26 => incident
  | 27 => heartbeat
  | 28 => ignorable
  | 29 => rowsQuery
  | 30 => writeRowsV2
  | 31 => updateRowsV2
  | 32 => deleteRowsV2
  | 33 => gtid
  | 34 => anonymousGtid
  | 35 => previousGtids
  | 36 => transactionContext
  | 37 => viewChange
  | 38 => xaPrepare
  | 160 => mariadbAnnotateRows
  | 161 => mariadbBinlogCheckpoint
  | 162 => mariadbGtid
  | 163 => mariadbGtidList
  | 164 => mariadbStartEncryption
  | _ => invalid

/-- The name shown for a type. -/
def name : EventType → String
  | unknown => "Unknown"
  | startV3 => "StartEventV3"
  | query => "QueryEvent"
  | stop => "StopEvent"
  | rotate => "RotateEvent"
  | intvar => "IntvarEvent"
  | load => "LoadEvent"
  | slave => "SlaveEvent"
  | createFile => "CreateFileEvent"
  | appendBlock => "AppendBlockEvent"
  | execLoad => "ExecLoadEvent"
  | deleteFile => "DeleteFileEvent"
  | newLoad => "NewLoadEvent"
  | rand => "RandEvent"
  | userVar => "UserVarEvent"
  | formatDescription => "FormatDescriptionEvent"
  | xid => "XidEvent"
  | beginLoadQuery => "BeginLoadQueryEvent"
  | executeLoadQuery => "ExecuteLoadQueryEvent"
  | tableMap => "TableMapEvent"
  | writeRowsV0 => "WriteRowsEventV0"
  | updateRowsV0 => "UpdateRowsEventV0"
  | deleteRowsV0 => "DeleteRowsEventV0"
  | writeRowsV1 => "WriteRowsEventV1"
  | updateRowsV1 => "UpdateRowsEventV1"
  | deleteRowsV1 => "DeleteRowsEventV1"
  | incident => "IncidentEvent"
  | heartbeat => "HeartbeatLogEvent"
  | ignorable => "IgnorableLogEvent"
  | rowsQuery => "RowsQueryLogEvent"
  | writeRowsV2 => "WriteRowsEventV2"
  | updateRowsV2 => "UpdateRowsEventV2"
  | deleteRowsV2 => "DeleteRowsEventV2"
  | gtid => "GtidLogEvent"
  | anonymousGtid => "AnonymousGtidLogEvent"
  | previousGtids => "PreviousGtidsLogEvent"
  | transactionContext => "TransactionContextEvent"
  | viewChange => "ViewChangeEvent"
  | xaPrepare => "XaPrepareLogEvent"
  | mariadbAnnotateRows => "MariadbAnnotateRowsEvent"
  | mariadbBinlogCheckpoint => "MariadbBinlogCheckpointEvent"
  | mariadbGtid => "MariadbGtidEvent"
  | mariadbGtidList => "MariadbGtidListEvent"
  | mariadbStartEncryption => "MariadbStartEncryptionEvent"
  | invalid => "Invalid"

end EventType

end Binlog
