import Binlog.CivilTime
import Binlog.Real
import Binlog.Text.Quoted
import Binlog.Event

/-!
# Dumped events

An event as text for people: a title, a line for each thing worth knowing, and an empty line. A
line is a label and a text with a colon between them. First come the lines that all events have,
then those of the payload.
-/

namespace Binlog

/-- A label and a text. -/
abbrev DumpLine := String × String

namespace Dump

/-- The text of a number. -/
def nat (n : Nat) : String := .ofList (Digits.chars n)

/-- The text of a truth value. -/
def bool (b : Bool) : String := if b then "true" else "false"

end Dump

open Dump

/-! ## Values -/

/-- A decimal with its groups. -/
def Decimal.dump (d : Decimal) : String :=
  let list (groups : List Nat) : String := "[" ++ ", ".intercalate (groups.map nat) ++ "]"
  "MyDecimal \x7b precision: " ++ nat d.precision ++ ", scale: " ++ nat d.scale ++ ", negative: " ++
    bool d.negative ++ ", intg: " ++ list d.integer ++ ", frac: " ++ list d.fraction ++ " \x7d"

/-- The value of a variable with its form. -/
def UserValue.dump : UserValue → String
  | string s => "String(" ++ Text.quoted s ++ ")"
  | real bits => "Real(" ++ Real.text bits ++ ")"
  | int n => "Int(" ++ .ofList (Digits.signed n.toInt) ++ ")"
  | uint n => "UInt(" ++ nat n.toNat ++ ")"
  | decimal d => "Decimal(" ++ d.dump ++ ")"
  | row bs => "RowResult(" ++ Text.quotedBytes bs ++ ")"
  | unknown bs => "Unknown(" ++ Text.quotedBytes bs ++ ")"

/-- The use of an integer. -/
def IntvarKey.dump : IntvarKey → String
  | invalid => "Invalid"
  | lastInsertId => "LastInsertId"
  | insertId => "InsertId"
  | unknown code => "Unknown(" ++ nat code.toNat ++ ")"

/-! ## Lines -/

/-- The lines of the start of a transaction. -/
def GtidEvent.dump (g : GtidEvent) : List DumpLine :=
  [("Commit", bool g.commitFlag), ("GTID_NEXT", g.gtid.text)] ++
    match g.clock with
    | none => []
    | some c =>
      [("last_committed", nat c.lastCommitted.toNat),
        ("sequence_number", nat c.sequenceNumber.toNat)]

/-- The lines of a payload. -/
def Payload.dump : Payload → List DumpLine
  | query d =>
    [("Schema", d.statement.schema), ("Execution time", nat d.head.execTime.toNat),
      ("Query", d.statement.text)]
  | stop | notImplemented => []
  | rotate d => [("Position", nat d.position.toNat), ("Next binlog file", d.nextFile)]
  | intvar d => [("Type", d.key.dump), ("Value", nat d.value.toNat)]
  | rand d => [("seed1", nat d.seed1.toNat), ("seed2", nat d.seed2.toNat)]
  | userVar d =>
    [("User variable name", d.name),
      ("Value", match d.value with
        | none => "NULL"
        | some v => v.value.dump)]
  | formatDescription d =>
    [("Binlog version", nat d.binlogVersion.toNat), ("MySQL version", d.serverVersion)]
  | xid d => [("Transaction ID", nat d.xid.toNat)]
  | beginLoad d => [("File id", nat d.fileId.toNat), ("Block data", Utf8.decodeLossy d.block)]
  | executeLoad d =>
    [("Slave proxy id", nat d.head.slaveProxyId.toNat),
      ("Execution time", nat d.head.execTime.toNat),
      ("Schema length", nat d.head.schemaLength.toNat),
      ("Error code", nat d.head.errorCode.toNat),
      ("Status vars length", nat d.head.statusVarsLength.toNat),
      ("File id", nat d.file.fileId.toNat),
      ("Start pos", nat d.file.startPosition.toNat),
      ("End pos", nat d.file.endPosition.toNat),
      ("Dup handling flags", nat d.file.duplicateHandling.toNat)]
  | heartbeat d => [("Current binlog", d.file)]
  | rowsQuery d => [("Query length", nat d.declaredLength.toNat), ("Query", d.text)]
  | gtid d | anonymousGtid d => d.dump
  | previousGtids d => [("GTID set", d.gtids.text)]
  | xaPrepare d =>
    [("One phase", bool d.onePhase), ("XID formatID", nat d.id.formatId.toNat),
      ("XID", d.id.text)]
  | annotateRows d => [("SQL statement", Utf8.decodeLossy d.statement)]
  | binlogCheckpoint d => [("Filename", d.file)]
  | domainGtid d => [("Flags", nat d.flags.toNat), ("GTID", d.gtid.text)]
  | domainGtidList d => [("GTID list", ",".intercalate (d.gtids.map DomainGtid.text))]
  | startEncryption d =>
    [("Scheme", nat d.scheme.toNat), ("Key version", nat d.keyVersion.toNat),
      ("Nonce", Hex.text d.nonce)]

/-- The lines that all events have; the verdict is one if there is any. -/
def Event.dumpHead (e : Event) : List DumpLine :=
  [("Date", (CivilTime.ofSeconds e.header.timestamp.toNat).text),
    ("Log position", nat e.header.nextPosition.toNat), ("Event size", nat e.eventSize),
    ("Read bytes", nat e.bytesConsumed)] ++
    if e.checksum = .notChecked then [] else [("Checksum", e.checksum.name)]

/-- The text of an event. -/
def Event.dump (e : Event) : String :=
  let line : DumpLine → String := fun (label, text) => label ++ ": " ++ text ++ "\n"
  "=== " ++ e.name ++ " ===\n" ++ String.join ((e.dumpHead ++ e.data.dump).map line) ++ "\n"

end Binlog
