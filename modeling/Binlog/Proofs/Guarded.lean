import Binlog.Parser

/-!
# Guarded decoding

The decoder once more, written so that it notices where an operation is applied outside its domain:
an element that is not there, a run of bytes beyond the end of its buffer, a difference below zero,
a sum beyond the machine word. Each of these is a `Fault`, not one of the errors of decoding.

**Cursors** (`GuardedCursor`). A buffer and an offset, with no proof that the offset lies within the
buffer. Reading computes with both, and a fault stays in the cursor; the reader then goes on with a
value of no meaning, so a fault is never lost. Looking ahead leaves the cursor as it is. If that is
a fault it is still one when the reads are over, because no read brings an offset back into the
buffer, and there it is told (`GuardedCursor.firstFault`).

**Decoders.** Most decoders touch bytes only through their source, so running them over a guarded
cursor guards them. Written out are those that compute with lengths and places of their own: packed
decimals, version texts, format descriptions, the data that is cut into body and footer, and the
decoders that read a part from bytes of its own.
-/

namespace Binlog

/-! ## Partial operations -/

/-- An operation that was applied outside its domain. -/
inductive Fault where
  /-- An element at a place that there is none at. -/
  | index (place size : Nat)
  /-- A run of bytes that does not lie within the buffer. -/
  | slice (start stop size : Nat)
  /-- A difference below zero. -/
  | underflow (a b : Nat)
  /-- A number that does not fit a machine word. -/
  | overflow (n : Nat)
  deriving DecidableEq

namespace Guard

/-- The difference of two numbers. -/
def sub (a b : Nat) : Except Fault Nat := if b ≤ a then .ok (a - b) else .error (.underflow a b)

/-- A number computed in a machine word. -/
def word (n : Nat) : Except Fault Nat := if n < 2 ^ 64 then .ok n else .error (.overflow n)

/-- The element at a place. -/
def get {α : Type} (xs : List α) (i : Nat) : Except Fault α :=
  match xs[i]? with
  | some x => .ok x
  | none => .error (.index i xs.length)

/-- The list with another element at a place. -/
def set {α : Type} (xs : List α) (i : Nat) (x : α) : Except Fault (List α) :=
  if i < xs.length then .ok (xs.set i x) else .error (.index i xs.length)

/-- The bytes from `start` on, up to `stop`. -/
def slice (bs : Bytes) (start stop : Nat) : Except Fault Bytes :=
  if start ≤ stop ∧ stop ≤ bs.length then .ok ((bs.take stop).drop start)
  else .error (.slice start stop bs.length)

end Guard

/-! ## Cursors -/

/-- A buffer, an offset into it, and the first fault of the reads so far. -/
structure GuardedCursor where
  buffer : Bytes
  offset : Nat
  fault : Option Fault

namespace GuardedCursor

/-- A cursor before the first byte. -/
def start (buffer : Bytes) : GuardedCursor := ⟨buffer, 0, none⟩

/-- The cursor with a fault, unless it has one. -/
def mark (c : GuardedCursor) (f : Fault) : GuardedCursor := { c with fault := c.fault.or (some f) }

/-- The next `n` bytes and the cursor behind them, if there are as many. -/
def advance (n : Nat) (c : GuardedCursor) : Except Fault (Option (Bytes × GuardedCursor)) := do
  let left ← Guard.sub c.buffer.length c.offset
  if left < n then
    let _ ← Guard.sub n left
    return none
  else
    let stop ← Guard.word (c.offset + n)
    let bs ← Guard.slice c.buffer c.offset stop
    return some (bs, { c with offset := stop })

/-- Splits the next `n` bytes off; if that faults, these are no bytes. -/
def split? (n : Nat) (c : GuardedCursor) : Option (Bytes × GuardedCursor) :=
  match c.advance n with
  | .ok r => r
  | .error f => some ([], c.mark f)

/-- The bytes ahead, cut out of the buffer. -/
def ahead (c : GuardedCursor) : Except Fault Bytes := Guard.slice c.buffer c.offset c.buffer.length

/-- The bytes ahead; if cutting them out faults, these are no bytes. -/
def unread (c : GuardedCursor) : Bytes :=
  match c.ahead with
  | .ok bs => bs
  | .error _ => []

/-- The first fault of the reads so far, or else the fault of looking ahead. -/
def firstFault (c : GuardedCursor) : Option Fault :=
  match c.ahead with
  | .ok _ => c.fault
  | .error f => c.fault.or (some f)

instance : ByteSource GuardedCursor where
  unread := unread
  take? := split?

variable {ε α : Type}

/-- The result of a partial operation. -/
def check [Inhabited α] (x : Except Fault α) : Reader GuardedCursor ε α := fun c =>
  match x with
  | .ok a => .ok a c
  | .error f => .ok default (c.mark f)

/-- Runs a reader on bytes of their own; its error is the error, and its fault the fault. -/
def within (bs : Bytes) (r : Reader GuardedCursor ε α) : Reader GuardedCursor ε α := fun c =>
  match r ⟨bs, 0, c.fault⟩ with
  | .ok a c' => .ok a { c with fault := c'.firstFault }
  | .error e c' => .error e { c with fault := c'.firstFault }

/-- The outcome of the reads so far, or their fault. -/
def settle (c : GuardedCursor) (outcome : α) : Except Fault α :=
  match c.firstFault with
  | none => .ok outcome
  | some f => .error f

/-- Reads the front of a run of bytes and gives the number of bytes passed over beside the value. -/
def run (bs : Bytes) (r : Reader GuardedCursor DecodeError α) :
    ExceptT DecodeError (Except Fault) (α × Nat) :=
  match r (start bs) with
  | .ok a c => c.settle (.ok (a, c.offset))
  | .error e c => c.settle (.error e)

end GuardedCursor

open GuardedCursor (check)

/-! ## Decimals -/

namespace Decimal

/-- The bytes of a group, by its number of digits. -/
def widths : List Nat := [0, 1, 1, 2, 2, 3, 3, 4, 4, 4]

/-- The bytes of a packed decimal. -/
def sizeGuarded (precision scale : Nat) : Except Fault Nat := do
  let digits ← Guard.sub precision scale
  let integer ← Guard.get widths (digits % 9)
  let fraction ← Guard.get widths (scale % 9)
  Guard.word (digits / 9 * 4 + integer + scale / 9 * 4 + fraction)

/-- Reads a group of at most four bytes. -/
def readGroup (width : Nat) : Reader GuardedCursor DecodeError Nat :=
  match width with
  | 1 => Reader.number (.big 1)
  | 2 => Reader.number (.big 2)
  | 3 => Reader.number (.big 3)
  | _ => Reader.number (.big 4)

/-- Reads the group that is left when `digits` digits are cut into nines. -/
def readShortGroup (digits : Nat) : Reader GuardedCursor DecodeError (List Nat) :=
  if digits % 9 = 0 then return []
  else do
    let width ← check (Guard.get widths (digits % 9))
    return [← readGroup width]

/-- Reads the groups before the point. -/
def readInteger (digits : Nat) : Reader GuardedCursor DecodeError (List Nat) := do
  return (← readShortGroup digits) ++ (← Reader.count (readGroup 4) (digits / 9))

/-- Reads the groups behind the point. -/
def readFraction (scale : Nat) : Reader GuardedCursor DecodeError (List Nat) := do
  return (← Reader.count (readGroup 4) (scale / 9)) ++ (← readShortGroup scale)

/-- Reads all groups. -/
def readGroups (digits scale : Nat) : Reader GuardedCursor DecodeError (List Nat × List Nat) := do
  return (← readInteger digits, ← readFraction scale)

/-- Reads a packed decimal. -/
def readGuarded (precision scale : Nat) : Reader GuardedCursor DecodeError Decimal := do
  if Admitted precision scale then
    let size ← check (sizeGuarded precision scale)
    let left ← Reader.left
    if left < size then
      throw (.malformedDecimal (.tooShort precision scale size left))
    else
      let block ← Reader.take size
      let top ← check (Guard.get block 0)
      let negative := top &&& 0x80 == 0
      let digits ← check (Guard.sub precision scale)
      let (integer, fraction) ← GuardedCursor.within
        (if negative then complement (flipTop block) else flipTop block) (readGroups digits scale)
      return { precision, scale, negative, integer, fraction }
  else
    throw (.malformedDecimal (.outOfRange precision scale))

end Decimal

/-! ## User variables -/

/-- Reads a value from its own bytes. -/
def UserValue.readGuarded (valueType : UInt8) (unsigned : Bool) :
    Reader GuardedCursor DecodeError UserValue := do
  match valueType.toNat with
  | 0 => return .string (Utf8.decodeLossy (← Reader.rest))
  | 1 => return .real (← Reader.u64)
  | 2 => if unsigned then return .uint (← Reader.u64) else return .int (← Reader.i64)
  | 3 => return .row (← Reader.rest)
  | 4 =>
    let precision ← Reader.u8
    let scale ← Reader.u8
    return .decimal (← Decimal.readGuarded precision.toNat scale.toNat)
  | _ => return .unknown (← Reader.rest)

/-- Reads a value with its type, character set and flags. -/
def TypedVar.readGuarded : Reader GuardedCursor DecodeError TypedVar := do
  let valueType ← Reader.u8
  let charset ← Reader.u32
  let bs ← Reader.takePrefixed 4
  let flags ← if ← Reader.hasMore then Reader.u8 else pure 0
  let unsigned := flags &&& 1 != 0
  let value ← GuardedCursor.within bs (UserValue.readGuarded valueType unsigned)
  return { valueType, charset, unsigned, value }

/-- Reads a variable. -/
def UserVar.readGuarded : Reader GuardedCursor DecodeError UserVar := do
  let name ← Reader.strictText (← Reader.takePrefixed 4)
  let isNull ← Reader.u8
  if isNull != 0 then
    return { name, value := none }
  else
    return { name, value := some (← TypedVar.readGuarded) }

/-! ## Statements -/

/-- Reads what follows the heads. -/
def Statement.readGuarded (head : QueryHead) : Reader GuardedCursor DecodeError Statement := do
  let block ← Reader.take head.statusVarsLength.toNat
  let statusVars ← GuardedCursor.within block StatusVars.read
  let schema ← Reader.strictText (← Reader.take head.schemaLength.toNat)
  Reader.skip 1
  let text ← Reader.rest
  return { statusVars, schema, text := Utf8.decodeLossy text }

/-- Reads a query. -/
def Query.readGuarded : Reader GuardedCursor DecodeError Query := do
  let head ← QueryHead.read
  let statement ← Statement.readGuarded head
  return { head, statement }

/-- Reads a statement that loads a file. -/
def ExecuteLoad.readGuarded : Reader GuardedCursor DecodeError ExecuteLoad := do
  let head ← QueryHead.read
  let file ← LoadedFile.read
  let statement ← Statement.readGuarded head
  return { head, file, statement }

/-! ## Format descriptions -/

namespace ServerVersion

/-- Puts the numbers of the segments into their places, from the `i`-th on. -/
def fillGuarded : (segments : List (List Char)) → (i : Nat) → (ns : List UInt32) →
    Except Fault (Option (List UInt32))
  | [], _, ns => .ok (some ns)
  | segment :: segments, i, ns =>
    match segment? segment with
    | none => .ok none
    | some n => do fillGuarded segments (i + 1) (← Guard.set ns i n)

/-- The version that a text names; its numbers have three places. -/
def ofTextGuarded (s : String) : Except Fault (Option ServerVersion) := do
  return (← fillGuarded (segments s.toList) 0 [0, 0, 0]).map ofNumbers

end ServerVersion

namespace FormatDescription

/-- The place behind the last byte that is not NUL. -/
def textEnd (bs : Bytes) : Nat :=
  match bs.reverse.findIdx? (· != 0) with
  | some i => bs.length - 1 - i + 1
  | none => 0

/-- The length of the table at the front of the bytes. -/
def tableLengthGuarded (bs : Bytes) : Except Fault Nat :=
  match bs[ownEntry]? with
  | some n =>
    if fixedLength ≤ n.toNat then do
      let length ← Guard.sub n.toNat fixedLength
      return if length ≤ bs.length then length else bs.length
    else
      return bs.length
  | none => return bs.length

/-- The algorithm byte in data that ends with a checksum of four bytes. -/
def peekGuarded (data : Bytes) : Except Fault (Option UInt8) :=
  match data[fixedLength + ownEntry]? with
  | some n =>
    if n.toNat < fixedLength then return none
    else do
      let place ← Guard.word (fixedLength + (n.toNat - fixedLength))
      let size ← Guard.word (place + 1 + 4)
      if data.length = size then return some (← Guard.get data place) else return none
  | none => return none

/-- Reads a format description, without a checksum behind it. -/
def readGuarded : Reader GuardedCursor DecodeError FormatDescription := do
  let binlogVersion ← Reader.u16
  let raw ← Reader.take versionLength
  let text ← check (Guard.slice raw 0 (textEnd raw))
  let serverVersion ← Reader.strictText text
  match ← check (ServerVersion.ofTextGuarded serverVersion) with
  | none => throw (.invalidServerVersion serverVersion)
  | some version =>
    let createTimestamp ← Reader.u32
    let headerLength ← Reader.u8
    let length ← check (tableLengthGuarded (← Reader.unread))
    let postHeaderLengths ← Reader.take length
    let checksumAlgorithm ← if ← Reader.hasMore then some <$> Reader.u8 else pure none
    return { binlogVersion, serverVersion, version, createTimestamp, headerLength,
             postHeaderLengths, checksumAlgorithm }

end FormatDescription

/-! ## Events -/

/-- The number of bytes that stand behind a body. -/
def Footer.length (footer : Footer) : Nat := if footer = .absent then 0 else size

/-- Reads a body of `size` bytes and the checksum behind it. -/
def Frame.cut {σ : Type} [ByteSource σ] (footer : Footer) (size : Nat) :
    Reader σ DecodeError Frame := do
  let body ← Reader.take size
  let crc32 ← if footer = .absent then pure none else some <$> Reader.u32
  return ⟨footer, body, crc32⟩

/-- Reads a payload of a kind. -/
def Payload.readGuarded (server : UInt32) (version : Option ServerVersion) :
    EventKind → Reader GuardedCursor DecodeError Payload
  | .query => query <$> Query.readGuarded
  | .userVar => userVar <$> UserVar.readGuarded
  | .formatDescription => formatDescription <$> FormatDescription.readGuarded
  | .executeLoad => executeLoad <$> ExecuteLoad.readGuarded
  | kind => Payload.read server version kind

/-- The event that a frame holds, given how its body is read. -/
def Frame.readGuarded (f : Frame) (validate : Bool) (h : Header)
    (r : Reader GuardedCursor DecodeError Payload) :
    ExceptT DecodeError (Except Fault) Event := do
  let (data, consumed) ← GuardedCursor.run f.body r
  if consumed = f.body.length then
    return { header := h, data, crc32 := f.crc32, checksum := f.verdict validate h,
             eventSize := f.body.length, bytesConsumed := consumed }
  else
    throw (.eventSizeMismatch f.body.length consumed)

namespace Parser

/-- The footer in the data of an event. -/
def footerGuarded (p : Parser) (h : Header) (data : Bytes) : Except Fault Footer :=
  if h.eventType = .formatDescription then do
    return Footer.ofAlgorithm (← FormatDescription.peekGuarded data)
  else return if p.checksum then .crc32 else .absent

/-- The frame of an event in what follows its header. -/
def frameGuarded (p : Parser) (h : Header) (bs : Bytes) :
    ExceptT DecodeError (Except Fault) Frame := do
  if h.eventLength.toNat < Header.size then
    throw (.invalidEventLength h.eventLength)
  else
    let (data, _) ← GuardedCursor.run bs (Reader.take h.dataLength)
    let footer ← (p.footerGuarded h data : Except Fault Footer)
    if data.length < footer.length then
      throw (.invalidEventLength h.eventLength)
    else
      let size ← (Guard.sub data.length footer.length : Except Fault Nat)
      let (f, _) ← GuardedCursor.run data (Frame.cut footer size)
      return f

/-- Decodes what follows a header. -/
def decodeGuarded (p : Parser) (h : Header) (bs : Bytes) :
    ExceptT DecodeError (Except Fault) Event := do
  let f ← p.frameGuarded h bs
  f.readGuarded p.validate h
    (Payload.readGuarded h.serverId p.serverVersion (.ofType h.eventType))

end Parser

end Binlog
