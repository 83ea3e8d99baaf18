import Binlog.Export.Value
import Binlog.Text.Base64
import Binlog.Real
import Binlog.Event

/-!
# Exported events

Every field of an event is exported under its name, so events that are exported alike are alike. Ids
of transactions and decimals are exported as their text, raw bytes as base64. A real number that is
infinite or none at all has no exported value.
-/

namespace Binlog

open Value

/-! ## Statements -/

/-- A generated key's settings. -/
def AutoIncrement.toValue (a : AutoIncrement) : Value :=
  object [("increment", nat a.increment.toNat), ("offset", nat a.offset.toNat)]

/-- The character sets of a session. -/
def Charset.toValue (c : Charset) : Value :=
  object [("client", nat c.client.toNat), ("connection", nat c.connection.toNat),
    ("server", nat c.server.toNat)]

/-- An account. -/
def Invoker.toValue (i : Invoker) : Value :=
  object [("user", ofOption .text i.user), ("host", ofOption .text i.host)]

/-- All settings, those not given as nothing. -/
def StatusVars.toValue (v : StatusVars) : Value :=
  object [
    ("flags2", ofOption (nat ·.toNat) v.flags2),
    ("sql_mode", ofOption (nat ·.toNat) v.sqlMode),
    ("auto_increment", ofOption AutoIncrement.toValue v.autoIncrement),
    ("charset", ofOption Charset.toValue v.charset),
    ("time_zone", ofOption .text v.timeZone),
    ("catalog_nz", ofOption .text v.catalogNz),
    ("lc_time_names", ofOption (nat ·.toNat) v.lcTimeNames),
    ("charset_database", ofOption (nat ·.toNat) v.charsetDatabase),
    ("table_map_for_update", ofOption (nat ·.toNat) v.tableMapForUpdate),
    ("invoker", ofOption Invoker.toValue v.invoker),
    ("updated_db_names", ofOption (ofList .text) v.updatedDbNames),
    ("microseconds", ofOption (nat ·.toNat) v.microseconds),
    ("explicit_defaults_for_timestamp", ofOption bool v.explicitDefaultsForTimestamp),
    ("ddl_xid", ofOption (nat ·.toNat) v.ddlXid),
    ("default_collation_for_utf8mb4", ofOption (nat ·.toNat) v.defaultCollationForUtf8mb4),
    ("sql_require_primary_key", ofOption (nat ·.toNat) v.sqlRequirePrimaryKey),
    ("default_table_encryption", ofOption (nat ·.toNat) v.defaultTableEncryption),
    ("hrnow", ofOption (nat ·.toNat) v.hrnow),
    ("xid", ofOption (nat ·.toNat) v.xid)]

/-- The fields of a head. -/
def QueryHead.fields (h : QueryHead) : List (String × Value) :=
  [("slave_proxy_id", nat h.slaveProxyId.toNat), ("exec_time", nat h.execTime.toNat),
    ("schema_len", nat h.schemaLength.toNat), ("error_code", nat h.errorCode.toNat),
    ("status_vars_len", nat h.statusVarsLength.toNat)]

/-- The fields of a statement. -/
def Statement.fields (s : Statement) : List (String × Value) :=
  [("status_vars", s.statusVars.toValue), ("schema", .text s.schema), ("query", .text s.text)]

/-- A query, with head and statement side by side. -/
def Query.toValue (q : Query) : Value := object (q.head.fields ++ q.statement.fields)

/-- The first block of a file. -/
def BeginLoad.toValue (b : BeginLoad) : Value :=
  object [("file_id", nat b.fileId.toNat), ("block_data", .text (Base64.text b.block))]

/-- The fields of a loaded file. -/
def LoadedFile.fields (f : LoadedFile) : List (String × Value) :=
  [("file_id", nat f.fileId.toNat), ("start_pos", nat f.startPosition.toNat),
    ("end_pos", nat f.endPosition.toNat), ("dup_handling_flags", nat f.duplicateHandling.toNat)]

/-- A statement that loads a file. -/
def ExecuteLoad.toValue (e : ExecuteLoad) : Value :=
  object (e.head.fields ++ e.file.fields ++ e.statement.fields)

/-- The text of a statement behind its declared length. -/
def RowsQuery.toValue (r : RowsQuery) : Value :=
  object [("query_len", nat r.declaredLength.toNat), ("query", .text r.text)]

/-- The text of a statement as bytes. -/
def AnnotateRows.toValue (a : AnnotateRows) : Value :=
  object [("sql_statement", .text (Base64.text a.statement))]

/-! ## Values of a session -/

/-- The use of an integer. -/
def IntvarKey.toValue : IntvarKey → Value
  | invalid => .text "Invalid"
  | lastInsertId => .text "LastInsertId"
  | insertId => .text "InsertId"
  | unknown code => choice "Unknown" (nat code.toNat)

/-- An integer and its use. -/
def Intvar.toValue (i : Intvar) : Value :=
  object [("key", i.key.toValue), ("value", nat i.value.toNat)]

/-- The seeds of the random generator. -/
def Rand.toValue (r : Rand) : Value :=
  object [("seed1", nat r.seed1.toNat), ("seed2", nat r.seed2.toNat)]

/-- The value of a variable. -/
def UserValue.toValue : UserValue → Value
  | string s => choice "String" (.text s)
  | real bits => choice "Real" (if Real.isFinite bits then Value.real bits else null)
  | int n => choice "Int" (Value.int n.toInt)
  | uint n => choice "UInt" (nat n.toNat)
  | decimal d => choice "Decimal" (.text d.text)
  | row bs => choice "RowResult" (.text (Base64.text bs))
  | unknown bs => choice "Unknown" (.text (Base64.text bs))

/-- A value with its type, character set and flags. -/
def TypedVar.toValue (v : TypedVar) : Value :=
  object [("value_type", nat v.valueType.toNat), ("charset", nat v.charset.toNat),
    ("flags", nat v.flags.toNat), ("value", v.value.toValue)]

/-- A variable. -/
def UserVar.toValue (v : UserVar) : Value :=
  object [("name", .text v.name),
    ("value", match v.value with
      | none => .text "Null"
      | some value => choice "Value" value.toValue)]

/-! ## Files -/

/-- Where the log goes on. -/
def Rotate.toValue (r : Rotate) : Value :=
  object [("position", nat r.position.toNat), ("next_binlog_filename", .text r.nextFile)]

/-- A sign of life. -/
def Heartbeat.toValue (h : Heartbeat) : Value := object [("ident", .text h.file)]

/-- The oldest file that recovery needs. -/
def BinlogCheckpoint.toValue (b : BinlogCheckpoint) : Value := object [("filename", .text b.file)]

/-- The three numbers of a version. -/
def ServerVersion.toValue (v : ServerVersion) : Value :=
  object [("major", nat v.major.toNat), ("minor", nat v.minor.toNat), ("patch", nat v.patch.toNat)]

/-- How a log file is written. -/
def FormatDescription.toValue (f : FormatDescription) : Value :=
  object [("binlog_version", nat f.binlogVersion.toNat), ("server_version", .text f.serverVersion),
    ("version", f.version.toValue), ("create_timestamp", nat f.createTimestamp.toNat),
    ("header_length", nat f.headerLength.toNat),
    ("post_header_lengths", ofList (nat ·.toNat) f.postHeaderLengths),
    ("checksum_alg", ofOption (nat ·.toNat) f.checksumAlgorithm)]

/-- What is needed to decrypt the rest of a file. -/
def StartEncryption.toValue (s : StartEncryption) : Value :=
  object [("scheme", nat s.scheme.toNat), ("key_version", nat s.keyVersion.toNat),
    ("nonce", .text (Base64.text s.nonce))]

/-! ## Transactions -/

/-- Which transactions may run at the same time. -/
def LogicalClock.toValue (c : LogicalClock) : Value :=
  object [("lt_type", nat c.kind.toNat), ("last_committed", nat c.lastCommitted.toNat),
    ("sequence_number", nat c.sequenceNumber.toNat)]

/-- What is known of a commit. -/
def CommitInfo.toValue (c : CommitInfo) : Value :=
  object [("immediate_commit_ts", nat c.immediateTime.toNat),
    ("original_commit_ts", nat c.originTime.toNat),
    ("transaction_length", ofOption (nat ·.toNat) c.transactionLength),
    ("immediate_server_version", ofOption (nat ·.toNat) c.immediateVersion),
    ("original_server_version", ofOption (nat ·.toNat) c.originVersion),
    ("commit_group_ticket", ofOption (nat ·.toNat) c.ticket)]

/-- The start of a transaction. -/
def GtidEvent.toValue (g : GtidEvent) : Value :=
  object [("commit_flag", bool g.commitFlag), ("gtid", .text g.gtid.text),
    ("logical_clock", ofOption LogicalClock.toValue g.clock),
    ("commit_info", ofOption CommitInfo.toValue g.commit)]

/-- A set of transactions. -/
def GtidSet.toValue (s : GtidSet) : Value := .text s.text

/-- The transactions in the files before. -/
def PreviousGtids.toValue (p : PreviousGtids) : Value := object [("gtid_set", p.gtids.toValue)]

/-- The commit of a transaction. -/
def Xid.toValue (x : Xid) : Value := object [("xid", nat x.xid.toNat)]

/-- The id that a transaction manager gives. -/
def XaId.toValue (x : XaId) : Value :=
  object [("format_id", nat x.formatId.toNat), ("gtrid", .text x.globalPart),
    ("bqual", .text x.branchPart)]

/-- A prepared transaction. -/
def XaPrepare.toValue (x : XaPrepare) : Value :=
  object [("one_phase", bool x.onePhase), ("xid", x.id.toValue)]

/-- The start of a transaction in a domain. -/
def DomainGtidEvent.toValue (g : DomainGtidEvent) : Value :=
  object [("gtid", .text g.gtid.text), ("flags", nat g.flags.toNat),
    ("commit_id", ofOption (nat ·.toNat) g.commitId), ("xid", ofOption XaId.toValue g.xid)]

/-- The last transactions in each domain. -/
def DomainGtidList.toValue (l : DomainGtidList) : Value :=
  object [("flags", nat l.flags.toNat), ("gtids", ofList (.text ·.text) l.gtids)]

/-! ## Events -/

/-- The fields of a header. -/
def Header.toValue (h : Header) : Value :=
  object [("timestamp", nat h.timestamp.toNat), ("type_code", nat h.typeCode.toNat),
    ("server_id", nat h.serverId.toNat), ("event_len", nat h.eventLength.toNat),
    ("next_pos", nat h.nextPosition.toNat), ("flags", nat h.flags.toNat)]

/-- The name of a verdict. -/
def ChecksumState.toValue : ChecksumState → Value
  | notChecked => .text "not_checked"
  | valid => .text "valid"
  | invalid => .text "invalid"

/-- The fields of framed data, given how the data is exported. -/
def Framed.fields {δ : Type} (toValue : δ → Value) (e : Framed δ) : List (String × Value) :=
  [("header", e.header.toValue), ("data", toValue e.data),
    ("crc32", ofOption (nat ·.toNat) e.crc32), ("checksum", e.checksum.toValue),
    ("event_size", nat e.eventSize), ("bytes_consumed", nat e.bytesConsumed)]

/-- The type that an event of a kind is exported with. -/
def EventKind.tag : EventKind → String
  | query => "QueryEvent"
  | stop => "StopEvent"
  | rotate => "RotateEvent"
  | intvar => "IntvarEvent"
  | rand => "RandEvent"
  | userVar => "UserVarEvent"
  | formatDescription => "FormatDescriptionEvent"
  | xid => "XidEvent"
  | beginLoad => "BeginLoadQueryEvent"
  | executeLoad => "ExecuteLoadQueryEvent"
  | heartbeat => "HeartbeatLogEvent"
  | rowsQuery => "RowsQueryLogEvent"
  | gtid => "GtidLogEvent"
  | anonymousGtid => "AnonymousGtidLogEvent"
  | previousGtids => "PreviousGtidsLogEvent"
  | xaPrepare => "XaPrepareLogEvent"
  | annotateRows => "MariadbAnnotateRowsEvent"
  | binlogCheckpoint => "MariadbBinlogCheckpointEvent"
  | domainGtid => "MariadbGtidEvent"
  | domainGtidList => "MariadbGtidListEvent"
  | startEncryption => "MariadbStartEncryptionEvent"
  | notImplemented => "NotImplementedEvent"

/-- What an event holds. -/
def Payload.toValue : Payload → Value
  | query d => d.toValue
  | rotate d => d.toValue
  | intvar d => d.toValue
  | rand d => d.toValue
  | userVar d => d.toValue
  | formatDescription d => d.toValue
  | xid d => d.toValue
  | beginLoad d => d.toValue
  | executeLoad d => d.toValue
  | heartbeat d => d.toValue
  | rowsQuery d => d.toValue
  | gtid d => d.toValue
  | anonymousGtid d => d.toValue
  | previousGtids d => d.toValue
  | xaPrepare d => d.toValue
  | annotateRows d => d.toValue
  | binlogCheckpoint d => d.toValue
  | domainGtid d => d.toValue
  | domainGtidList d => d.toValue
  | startEncryption d => d.toValue
  | stop | notImplemented => null

/-- An event, with the tag of what was decoded as its type. -/
def Event.toValue (e : Event) : Value :=
  object (("type", .text e.data.kind.tag) :: Framed.fields Payload.toValue e)

/-- Data of one kind. -/
def DataKind.toValue : (k : DataKind) → k.Data → Value
  | query, d => Query.toValue d
  | stop, _ => null
  | rotate, d => Rotate.toValue d
  | intvar, d => Intvar.toValue d
  | rand, d => Rand.toValue d
  | userVar, d => UserVar.toValue d
  | formatDescription, d => FormatDescription.toValue d
  | xid, d => Xid.toValue d
  | beginLoad, d => BeginLoad.toValue d
  | executeLoad, d => ExecuteLoad.toValue d
  | heartbeat, d => Heartbeat.toValue d
  | rowsQuery, d => RowsQuery.toValue d
  | gtid, d => GtidEvent.toValue d
  | previousGtids, d => PreviousGtids.toValue d
  | xaPrepare, d => XaPrepare.toValue d
  | annotateRows, d => AnnotateRows.toValue d
  | binlogCheckpoint, d => BinlogCheckpoint.toValue d
  | domainGtid, d => DomainGtidEvent.toValue d
  | domainGtidList, d => DomainGtidList.toValue d
  | startEncryption, d => StartEncryption.toValue d
  | notImplemented, _ => null

/-- Framed data of one kind. -/
def Framed.toValue (k : DataKind) (e : Framed k.Data) : Value := object (e.fields k.toValue)

end Binlog
