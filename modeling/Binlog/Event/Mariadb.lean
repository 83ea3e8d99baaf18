import Binlog.Event.Transaction
import Binlog.FlagTable
import Binlog.Text.Digits

/-!
# Events of MariaDB

MariaDB knows a transaction by three numbers: the replication domain, the server and a sequence
number. The event at the start of a transaction (`DomainGtidEvent`) does not repeat the server,
which stands in the header; its flags tell which parts follow, and what is behind them is padding.
-/

namespace Binlog

variable {σ ε : Type} [ByteSource σ] [OfReadError ε]

/-! ## Transaction ids -/

/-- The id of a transaction. -/
structure DomainGtid where
  domain : UInt32
  server : UInt32
  sequence : UInt64
  deriving DecidableEq

/-- The three numbers with hyphens between them. -/
def DomainGtid.chars (g : DomainGtid) : List Char :=
  Digits.chars g.domain.toNat ++ '-' :: Digits.chars g.server.toNat ++
    '-' :: Digits.chars g.sequence.toNat

/-- The three numbers with hyphens between them. -/
def DomainGtid.text (g : DomainGtid) : String := .ofList g.chars

/-- Reads all three numbers. -/
def DomainGtid.read : Reader σ ε DomainGtid := do
  let domain ← Reader.u32
  let server ← Reader.u32
  let sequence ← Reader.u64
  return { domain, server, sequence }

/-- The bytes of all three numbers. -/
def DomainGtid.encode (g : DomainGtid) : Bytes :=
  Bytes.ofNatLE 4 g.domain.toNat ++ Bytes.ofNatLE 4 g.server.toNat ++
    Bytes.ofNatLE 8 g.sequence.toNat

/-! ## One transaction -/

/-- The start of a transaction. -/
structure DomainGtidEvent where
  gtid : DomainGtid
  flags : UInt8
  /-- The transactions committed as one group share it. -/
  commitId : Option UInt64
  xid : Option XaId
  deriving DecidableEq

namespace DomainGtidEvent

/-- The named flags, which take all eight bits. -/
def flagTable : FlagTable :=
  .ofNames ["STANDALONE", "GROUP_COMMIT_ID", "TRANSACTIONAL", "ALLOW_PARALLEL", "WAITED", "DDL",
    "PREPARED_XA", "COMPLETED_XA"]

/-- Whether the flags announce a commit id. -/
def announcesCommitId (flags : UInt8) : Bool := flags &&& 0x02 != 0

/-- Whether the flags announce the id of a transaction manager. -/
def announcesXid (flags : UInt8) : Bool := flags &&& 0xc0 != 0

/-- Reads the id of a transaction manager; the lengths have one byte each. -/
def readXid : Reader σ ε XaId := do
  let formatId ← Reader.u32
  let globalLength ← Reader.u8
  let branchLength ← Reader.u8
  XaId.readParts formatId globalLength.toNat branchLength.toNat

/-- Reads the start of a transaction on the given server. -/
def read (server : UInt32) : Reader σ ε DomainGtidEvent := do
  let sequence ← Reader.u64
  let domain ← Reader.u32
  let flags ← Reader.u8
  let commitId ← if announcesCommitId flags then some <$> Reader.u64 else pure none
  let xid ← if announcesXid flags then some <$> readXid else pure none
  let _ ← Reader.rest
  return { gtid := { domain, server, sequence }, flags, commitId, xid }

end DomainGtidEvent

/-! ## Lists -/

/-- The last transaction of each server in each domain. -/
structure DomainGtidList where
  /-- A number of four bits. -/
  flags : UInt8
  gtids : List DomainGtid
  deriving DecidableEq

/-- Reads a list; its first word holds the flags above the number of ids. -/
def DomainGtidList.read : Reader σ ε DomainGtidList := do
  let word ← Reader.u32
  let gtids ← Reader.count DomainGtid.read (word.toNat % 2 ^ 28)
  return { flags := .ofNat (word.toNat / 2 ^ 28), gtids }

/-- The bytes of a list. -/
def DomainGtidList.encode (l : DomainGtidList) : Bytes :=
  Bytes.ofNatLE 4 (l.flags.toNat * 2 ^ 28 + l.gtids.length) ++ l.gtids.flatMap DomainGtid.encode

/-! ## Encryption -/

/-- What is needed to decrypt the rest of a file. -/
structure StartEncryption where
  scheme : UInt8
  keyVersion : UInt32
  nonce : Bytes
  deriving DecidableEq

/-- The number of bytes of a nonce. -/
def StartEncryption.nonceSize : Nat := 12

/-- Reads what is needed to decrypt the rest of a file. -/
def StartEncryption.read : Reader σ ε StartEncryption := do
  let scheme ← Reader.u8
  let keyVersion ← Reader.u32
  let nonce ← Reader.take nonceSize
  return { scheme, keyVersion, nonce }

/-- The bytes of what is needed to decrypt the rest of a file. -/
def StartEncryption.encode (s : StartEncryption) : Bytes :=
  s.scheme :: Bytes.ofNatLE 4 s.keyVersion.toNat ++ s.nonce

end Binlog
