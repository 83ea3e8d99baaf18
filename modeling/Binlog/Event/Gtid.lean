import Binlog.Error
import Binlog.ServerVersion
import Binlog.Text.Digits

/-!
# Global transaction identifiers

A transaction is known by the server it came from, a 128-bit source id, and a number that the
server counts up.

**One transaction** (`GtidEvent`). Newer servers put more at the end: a logical clock since 5.7,
commit times, length, versions and a ticket since 8.0. Each part is there only if all before it
are. If the server's version is not known, a clock is there if its bytes are.

**Sets** (`GtidSet`). Intervals of numbers under each source id, in the order in which the ids first
appear.
-/

namespace Binlog

/-! ## Source ids -/

/-- The id of a server. -/
structure SourceId where
  value : BitVec 128
  deriving DecidableEq

namespace SourceId

/-- Reads an id, whose highest byte comes first. -/
def read {σ ε : Type} [ByteSource σ] [OfReadError ε] : Reader σ ε SourceId := do
  return ⟨.ofNat 128 (← Reader.number (.big 16))⟩

/-- The bytes of an id. -/
def encode (id : SourceId) : Bytes := .ofNatBE 16 id.value.toNat

/-- The digits of an id, grouped by hyphens into 8, 4, 4, 4 and 12. -/
def chars (id : SourceId) : List Char :=
  let cs := Hex.chars id.encode
  cs.take 8 ++ '-' :: (cs.drop 8).take 4 ++ '-' :: (cs.drop 12).take 4 ++
    '-' :: (cs.drop 16).take 4 ++ '-' :: cs.drop 20

/-- The text of an id. -/
def text (id : SourceId) : String := .ofList id.chars

end SourceId

/-! ## One transaction -/

/-- The id of a transaction. -/
structure Gtid where
  source : SourceId
  number : UInt64
  deriving DecidableEq

/-- The source id and the number, with a colon between them. -/
def Gtid.text (g : Gtid) : String :=
  .ofList (g.source.chars ++ ':' :: Digits.chars g.number.toNat)

/-- Which transactions may run at the same time. -/
structure LogicalClock where
  kind : UInt8
  lastCommitted : UInt64
  sequenceNumber : UInt64
  deriving DecidableEq

/-- When and by which version a transaction was committed: by the server that wrote the event, and
at its origin, the server that it came from. -/
structure CommitInfo where
  immediateTime : UInt64
  originTime : UInt64
  transactionLength : Option UInt64
  immediateVersion : Option UInt32
  originVersion : Option UInt32
  ticket : Option UInt64
  deriving DecidableEq

/-- The start of a transaction. -/
structure GtidEvent where
  commitFlag : Bool
  gtid : Gtid
  clock : Option LogicalClock
  commit : Option CommitInfo
  deriving DecidableEq

namespace LogicalClock

/-- The number of bytes of a clock. -/
def size : Nat := 17

/-- The first version whose events hold a clock. -/
def since : ServerVersion := ⟨5, 7, 0⟩

/-- Reads a clock. -/
def read {σ ε : Type} [ByteSource σ] [OfReadError ε] : Reader σ ε LogicalClock := do
  let kind ← Reader.u8
  let lastCommitted ← Reader.u64
  let sequenceNumber ← Reader.u64
  return { kind, lastCommitted, sequenceNumber }

end LogicalClock

namespace CommitInfo

variable {σ ε : Type} [ByteSource σ] [OfReadError ε]

/-- The number of bytes of a commit time. -/
def timeSize : Nat := 7

/-- The top bit of a commit time; if it is set the time at the origin follows. -/
def timeMark : UInt64 := 0x80000000000000

/-- The top bit of a version; if it is set the version at the origin follows. -/
def versionMark : UInt32 := 0x80000000

/-- Reads the commit time here and at the origin. -/
def readTimes : Reader σ ε (UInt64 × UInt64) := do
  let time ← Reader.u56
  if timeMark ≤ time then return (time - timeMark, ← Reader.u56) else return (time, time)

/-- Reads the version here and at the origin, if the bytes are there. -/
def readVersions : Reader σ ε (Option UInt32 × Option UInt32) := do
  if (← Reader.left) < 4 then return (none, none)
  let version ← Reader.u32
  if versionMark ≤ version then return (some (version - versionMark), some (← Reader.u32))
  else return (some version, some version)

/-- Reads what is known of a commit. -/
def read : Reader σ ε CommitInfo := do
  let (immediateTime, originTime) ← readTimes
  let transactionLength ←
    if ← Reader.hasMore then LenEncInt.toUInt64? <$> Reader.lenEncInt else pure none
  let (immediateVersion, originVersion) ← readVersions
  let ticket ← if 8 ≤ (← Reader.left) then some <$> Reader.u64 else pure none
  return { immediateTime, originTime, transactionLength, immediateVersion, originVersion,
           ticket }

end CommitInfo

namespace GtidEvent

variable {σ ε : Type} [ByteSource σ] [OfReadError ε]

/-- Whether a clock follows, with `left` bytes ahead. -/
def hasClock (version : Option ServerVersion) (left : Nat) : Bool :=
  match version with
  | some v => v.atLeast LogicalClock.since
  | none => LogicalClock.size ≤ left

/-- Reads the start of a transaction, written by a server of the given version. -/
def read (version : Option ServerVersion) : Reader σ ε GtidEvent := do
  let commitFlag ← Reader.u8
  let source ← SourceId.read
  let number ← Reader.u64
  let clock ←
    if hasClock version (← Reader.left) then some <$> LogicalClock.read else pure none
  let commit ←
    if clock.isSome && CommitInfo.timeSize ≤ (← Reader.left) then some <$> CommitInfo.read
    else pure none
  return { commitFlag := commitFlag == 1, gtid := { source, number }, clock, commit }

end GtidEvent

/-! ## Sets -/

/-- Numbers from `start` on, `stop` excluded. -/
structure GtidInterval where
  start : Int64
  stop : UInt64
  deriving DecidableEq

/-- Reads an interval. -/
def GtidInterval.read {σ ε : Type} [ByteSource σ] [OfReadError ε] : Reader σ ε GtidInterval := do
  let start ← Reader.i64
  let stop ← Reader.u64
  return { start, stop }

/-- The bytes of an interval. -/
def GtidInterval.encode (i : GtidInterval) : Bytes :=
  Bytes.ofNatLE 8 i.start.toUInt64.toNat ++ Bytes.ofNatLE 8 i.stop.toNat

/-- The two ends with a hyphen between them. -/
def GtidInterval.chars (i : GtidInterval) : List Char :=
  Digits.signed i.start.toInt ++ '-' :: Digits.chars i.stop.toNat

/-- A source id and intervals of its numbers. -/
abbrev GtidGroup := SourceId × List GtidInterval

/-- Adds intervals behind those of their source id, or a group at the end if it is new. -/
def GtidGroup.add (group : GtidGroup) : List GtidGroup → List GtidGroup
  | [] => [group]
  | g :: gs => if g.1 = group.1 then (g.1, g.2 ++ group.2) :: gs else g :: add group gs

theorem GtidGroup.mem_add (group : GtidGroup) (gs : List GtidGroup) (id : SourceId) :
    id ∈ (group.add gs).map Prod.fst ↔ id ∈ gs.map Prod.fst ∨ id = group.1 := by
  induction gs with
  | nil => simp [add]
  | cons g gs ih =>
    by_cases h : g.1 = group.1
    · simp only [add, h, if_true, List.map_cons, List.mem_cons]
      constructor
      · exact Or.inl
      · rintro (h' | h')
        · exact h'
        · exact .inl h'
    · simp only [add, h, if_false, List.map_cons, List.mem_cons, ih, or_assoc]

theorem GtidGroup.nodup_add (group : GtidGroup) (gs : List GtidGroup)
    (h : (gs.map Prod.fst).Nodup) : ((group.add gs).map Prod.fst).Nodup := by
  induction gs with
  | nil => simp [add]
  | cons g gs ih =>
    rw [List.map_cons, List.nodup_cons] at h
    by_cases hg : g.1 = group.1
    · simpa [add, hg] using ⟨by simpa [hg] using h.1, h.2⟩
    · rw [add, if_neg hg, List.map_cons, List.nodup_cons, mem_add]
      exact ⟨fun hm => hm.elim h.1 hg, ih h.2⟩

/-- Intervals under source ids, of which none occurs twice. -/
structure GtidSet where
  groups : List GtidGroup
  nodup : (groups.map Prod.fst).Nodup
  deriving DecidableEq

namespace GtidSet

/-- The set without a source id. -/
def empty : GtidSet := ⟨[], List.nodup_nil⟩

/-- The set with more intervals. -/
def add (s : GtidSet) (group : GtidGroup) : GtidSet :=
  ⟨group.add s.groups, group.nodup_add s.groups s.nodup⟩

/-- The set that groups make up, taken in turn. -/
def ofGroups (groups : List GtidGroup) : GtidSet := groups.foldl add empty

variable {σ : Type} [ByteSource σ]

/-- Reads a group as it is written: the source id, the number of intervals, the intervals. -/
def readGroup {ε : Type} [OfReadError ε] : Reader σ ε GtidGroup := do
  let source ← SourceId.read
  let n ← Reader.u64
  let intervals ← Reader.count GtidInterval.read n.toNat
  return (source, intervals)

/-- The bytes of a group. -/
def encodeGroup (group : GtidGroup) : Bytes :=
  group.1.encode ++ Bytes.ofNatLE 8 group.2.length ++ group.2.flatMap GtidInterval.encode

/-- Reads a set: the number of groups, which must not be negative, then the groups. -/
def read : Reader σ DecodeError GtidSet := do
  let n ← Reader.i64
  if n < 0 then
    throw (.negativeSourceCount n)
  else
    return ofGroups (← Reader.count readGroup n.toInt.toNat)

/-- The bytes of groups behind their number; a source id may occur more than once. -/
def encodeGroups (groups : List GtidGroup) : Bytes :=
  Bytes.ofNatLE 8 groups.length ++ groups.flatMap encodeGroup

/-- The text of a group: the source id, then each interval behind a colon. -/
def groupChars (group : GtidGroup) : List Char :=
  group.1.chars ++ group.2.flatMap fun i => ':' :: i.chars

/-- The groups with commas between them. -/
def chars (s : GtidSet) : List Char := [','].intercalate (s.groups.map groupChars)

/-- The groups with commas between them. -/
def text (s : GtidSet) : String := .ofList s.chars

end GtidSet

/-- The transactions in the files before this one. -/
structure PreviousGtids where
  gtids : GtidSet
  deriving DecidableEq

/-- Reads the transactions in the files before this one. -/
def PreviousGtids.read {σ : Type} [ByteSource σ] : Reader σ DecodeError PreviousGtids := do
  return ⟨← GtidSet.read⟩

end Binlog
