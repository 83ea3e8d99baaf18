import Binlog.Error
import Binlog.FlagTable

/-!
# Status variables

A statement in the log comes with the session settings it was run under. They are a block of
entries: a key byte, then a value whose form the key fixes. A known entry may carry no value, as
old servers wrote some keys alone.

**Meaning.** An entry overrides an earlier one of the same key, so the settings are the entries put
one after the other into an empty record (`StatusVars.ofEntries`). An empty time zone or catalog
name stands for an absent one.
-/

namespace Binlog

/-! ## Keys -/

/-- What an entry sets. -/
inductive StatusKey where
  | flags2
  | sqlMode
  | catalog
  | autoIncrement
  | charset
  | timeZone
  | catalogNz
  | lcTimeNames
  | charsetDatabase
  | tableMapForUpdate
  | masterDataWritten
  | invoker
  | updatedDbNames
  | microseconds
  | commitTs
  | commitTs2
  | explicitDefaultsForTimestamp
  | ddlLoggedWithXid
  | defaultCollationForUtf8mb4
  | sqlRequirePrimaryKey
  | defaultTableEncryption
  | hrnow
  | xid
  deriving DecidableEq

namespace StatusKey

/-- The key that a byte stands for. The two from 0x80 on belong to MariaDB. -/
def ofCode? (code : UInt8) : Option StatusKey :=
  match code.toNat with
  | 0x00 => some flags2
  | 0x01 => some sqlMode
  | 0x02 => some catalog
  | 0x03 => some autoIncrement
  | 0x04 => some charset
  | 0x05 => some timeZone
  | 0x06 => some catalogNz
  | 0x07 => some lcTimeNames
  | 0x08 => some charsetDatabase
  | 0x09 => some tableMapForUpdate
  | 0x0a => some masterDataWritten
  | 0x0b => some invoker
  | 0x0c => some updatedDbNames
  | 0x0d => some microseconds
  | 0x0e => some commitTs
  | 0x0f => some commitTs2
  | 0x10 => some explicitDefaultsForTimestamp
  | 0x11 => some ddlLoggedWithXid
  | 0x12 => some defaultCollationForUtf8mb4
  | 0x13 => some sqlRequirePrimaryKey
  | 0x14 => some defaultTableEncryption
  | 0x80 => some hrnow
  | 0x81 => some xid
  | _ => none

/-- The name shown for a key. -/
def name : StatusKey → String
  | flags2 => "Flags2"
  | sqlMode => "SqlMode"
  | catalog => "Catalog"
  | autoIncrement => "AutoIncrement"
  | charset => "Charset"
  | timeZone => "TimeZone"
  | catalogNz => "CatalogNz"
  | lcTimeNames => "LcTimeNames"
  | charsetDatabase => "CharsetDatabase"
  | tableMapForUpdate => "TableMapForUpdate"
  | masterDataWritten => "MasterDataWritten"
  | invoker => "Invoker"
  | updatedDbNames => "UpdatedDbNames"
  | microseconds => "Microseconds"
  | commitTs => "CommitTs"
  | commitTs2 => "CommitTs2"
  | explicitDefaultsForTimestamp => "ExplicitDefaultsForTimestamp"
  | ddlLoggedWithXid => "DdlLoggedWithXid"
  | defaultCollationForUtf8mb4 => "DefaultCollationForUtf8mb4"
  | sqlRequirePrimaryKey => "SqlRequirePrimaryKey"
  | defaultTableEncryption => "DefaultTableEncryption"
  | hrnow => "Hrnow"
  | xid => "Xid"

end StatusKey

/-! ## Entries -/

/-- The step and the first value of generated keys. -/
structure AutoIncrement where
  increment : UInt16
  offset : UInt16
  deriving DecidableEq

/-- The character sets of a session. -/
structure Charset where
  client : UInt16
  connection : UInt16
  server : UInt16
  deriving DecidableEq

/-- The account that runs a statement. -/
structure Invoker where
  user : Option String
  host : Option String
  deriving DecidableEq

/-- An entry of the block. -/
inductive StatusVar where
  | flags2 (bits : UInt32)
  | sqlMode (bits : UInt64)
  | autoIncrement (setting : AutoIncrement)
  | charset (setting : Charset)
  | timeZone (zone : Option String)
  | catalogNz (catalog : Option String)
  | lcTimeNames (code : UInt16)
  | charsetDatabase (code : UInt16)
  | tableMapForUpdate (bits : UInt64)
  | invoker (account : Invoker)
  | updatedDbNames (names : List String)
  | microseconds (n : UInt32)
  | explicitDefaultsForTimestamp (on : Bool)
  | ddlXid (xid : UInt64)
  | defaultCollationForUtf8mb4 (code : UInt16)
  | sqlRequirePrimaryKey (n : UInt8)
  | defaultTableEncryption (n : UInt8)
  | hrnow (n : UInt32)
  | xid (xid : UInt64)
  /-- A key alone. -/
  | bare
  deriving DecidableEq

namespace StatusVar

variable {σ : Type} [ByteSource σ]

/-- The count that stands for more databases than are listed; no name follows it. -/
def overMaxDbNames : UInt8 := 254

/-- A text up to its terminating NUL. -/
def readName : Reader σ DecodeError String := do Reader.strictText (← Reader.takeUntil 0 false)

/-- The value that a key asks for. -/
def readValue : StatusKey → Reader σ DecodeError StatusVar
  | .flags2 => return .flags2 (← Reader.u32)
  | .sqlMode => return .sqlMode (← Reader.u64)
  | .autoIncrement => do
    let increment ← Reader.u16
    let offset ← Reader.u16
    return .autoIncrement { increment, offset }
  | .charset => do
    let client ← Reader.u16
    let connection ← Reader.u16
    let server ← Reader.u16
    return .charset { client, connection, server }
  | .timeZone => return .timeZone (← Reader.optionalText)
  | .catalogNz => return .catalogNz (← Reader.optionalText)
  | .lcTimeNames => return .lcTimeNames (← Reader.u16)
  | .charsetDatabase => return .charsetDatabase (← Reader.u16)
  | .tableMapForUpdate => return .tableMapForUpdate (← Reader.u64)
  | .invoker => do
    let user ← Reader.optionalText
    let host ← Reader.optionalText
    return .invoker { user, host }
  | .updatedDbNames => do
    let n ← Reader.u8
    if n = overMaxDbNames then return .updatedDbNames []
    else return .updatedDbNames (← Reader.count readName n.toNat)
  | .microseconds => return .microseconds (← Reader.u24)
  | .explicitDefaultsForTimestamp =>
    return .explicitDefaultsForTimestamp ((← Reader.u8) != 0)
  | .ddlLoggedWithXid => return .ddlXid (← Reader.u64)
  | .defaultCollationForUtf8mb4 => return .defaultCollationForUtf8mb4 (← Reader.u16)
  | .sqlRequirePrimaryKey => return .sqlRequirePrimaryKey (← Reader.u8)
  | .defaultTableEncryption => return .defaultTableEncryption (← Reader.u8)
  | .hrnow => return .hrnow (← Reader.u24)
  | .xid => return .xid (← Reader.u64)
  | .catalog | .masterDataWritten | .commitTs | .commitTs2 => return .bare

/-- Reads an entry. -/
def read : Reader σ DecodeError StatusVar := do
  let code ← Reader.u8
  match StatusKey.ofCode? code with
  | some key => readValue key
  | none => throw (.unknownStatusVariable code)

end StatusVar

/-! ## The settings -/

/-- The settings of a session, as far as they are given. -/
structure StatusVars where
  flags2 : Option UInt32 := none
  sqlMode : Option UInt64 := none
  autoIncrement : Option AutoIncrement := none
  charset : Option Charset := none
  timeZone : Option String := none
  catalogNz : Option String := none
  lcTimeNames : Option UInt16 := none
  charsetDatabase : Option UInt16 := none
  tableMapForUpdate : Option UInt64 := none
  invoker : Option Invoker := none
  updatedDbNames : Option (List String) := none
  microseconds : Option UInt32 := none
  explicitDefaultsForTimestamp : Option Bool := none
  ddlXid : Option UInt64 := none
  defaultCollationForUtf8mb4 : Option UInt16 := none
  sqlRequirePrimaryKey : Option UInt8 := none
  defaultTableEncryption : Option UInt8 := none
  hrnow : Option UInt32 := none
  xid : Option UInt64 := none
  deriving DecidableEq

namespace StatusVars

/-- The settings with what an entry sets. -/
def put (vars : StatusVars) : StatusVar → StatusVars
  | .flags2 bits => { vars with flags2 := bits }
  | .sqlMode bits => { vars with sqlMode := bits }
  | .autoIncrement setting => { vars with autoIncrement := setting }
  | .charset setting => { vars with charset := setting }
  | .timeZone zone => { vars with timeZone := zone }
  | .catalogNz catalog => { vars with catalogNz := catalog }
  | .lcTimeNames code => { vars with lcTimeNames := code }
  | .charsetDatabase code => { vars with charsetDatabase := code }
  | .tableMapForUpdate bits => { vars with tableMapForUpdate := bits }
  | .invoker account => { vars with invoker := account }
  | .updatedDbNames names => { vars with updatedDbNames := names }
  | .microseconds n => { vars with microseconds := n }
  | .explicitDefaultsForTimestamp on => { vars with explicitDefaultsForTimestamp := on }
  | .ddlXid xid => { vars with ddlXid := xid }
  | .defaultCollationForUtf8mb4 code => { vars with defaultCollationForUtf8mb4 := code }
  | .sqlRequirePrimaryKey n => { vars with sqlRequirePrimaryKey := n }
  | .defaultTableEncryption n => { vars with defaultTableEncryption := n }
  | .hrnow n => { vars with hrnow := n }
  | .xid xid => { vars with xid := xid }
  | .bare => vars

/-- The settings that entries make, a later one overriding an earlier one of its key. -/
def ofEntries (entries : List StatusVar) : StatusVars := entries.foldl put {}

/-- Reads all entries ahead. -/
def read {σ : Type} [ByteSource σ] : Reader σ DecodeError StatusVars := do
  return ofEntries (← Reader.untilEnd StatusVar.read)

/-- The named options of a session. -/
def flags2Table : FlagTable :=
  [("AUTO_IS_NULL", 0x4000), ("NOT_AUTOCOMMIT", 0x80000), ("NO_FOREIGN_KEY_CHECKS", 0x4000000),
    ("RELAXED_UNIQUE_CHECKS", 0x8000000)]

/-- The named SQL modes. -/
def sqlModeTable : FlagTable :=
  .ofNames ["REAL_AS_FLOAT", "PIPES_AS_CONCAT", "ANSI_QUOTES", "IGNORE_SPACE", "NOT_USED",
    "ONLY_FULL_GROUP_BY", "NO_UNSIGNED_SUBTRACTION", "NO_DIR_IN_CREATE", "POSTGRESQL", "ORACLE",
    "MSSQL", "DB2", "MAXDB", "NO_KEY_OPTIONS", "NO_TABLE_OPTIONS", "NO_FIELD_OPTIONS", "MYSQL323",
    "MYSQL40", "ANSI", "NO_AUTO_VALUE_ON_ZERO", "NO_BACKSLASH_ESCAPES", "STRICT_TRANS_TABLES",
    "STRICT_ALL_TABLES", "NO_ZERO_IN_DATE", "NO_ZERO_DATE", "INVALID_DATES",
    "ERROR_FOR_DIVISION_BY_ZERO", "TRADITIONAL", "NO_AUTO_CREATE_USER", "HIGH_NOT_PRECEDENCE",
    "NO_ENGINE_SUBSTITUTION", "PAD_CHAR_TO_FULL_LENGTH"]

end StatusVars

end Binlog
