import Binlog.Bytes.Reader

/-!
# Reads and writes as data

A step of a script names one operation of a reader, a cursor or a writer, with its arguments. A
list of steps can then be run over any source, and two sources can be compared on all scripts.
-/

namespace Binlog

/-! ## Reading -/

/-- An operation that every byte source offers. -/
inductive ReadStep where
  | number (f : NumberFormat)
  | signed
  | real
  | take (n : Nat)
  | skip (n : Nat)
  | rest
  | takeUntil (b : UInt8) (inclusive : Bool)
  | takeCString (max : Nat)
  | takePrefixed (width : Nat)
  | lenEncInt
  | hasMore
  | peek
  deriving DecidableEq

/-- What a step gives. -/
inductive ReadValue where
  | nothing
  | number (n : Nat)
  | signed (n : Int64)
  /-- A binary64 number, as its bits. -/
  | real (bits : UInt64)
  | bytes (bs : Bytes)
  | bool (b : Bool)
  | lenEncInt (n : LenEncInt)
  deriving DecidableEq

/-- Performs a step. -/
def ReadStep.run {σ ε : Type} [ByteSource σ] [OfReadError ε] : ReadStep → Reader σ ε ReadValue
  | number f => return .number (← Reader.number f)
  | signed => return .signed (← Reader.i64)
  | real => return .real (← Reader.u64)
  | take n => return .bytes (← Reader.take n)
  | skip n => do
    Reader.skip n
    return .nothing
  | rest => return .bytes (← Reader.rest)
  | takeUntil b inclusive => return .bytes (← Reader.takeUntil b inclusive)
  | takeCString max => return .bytes (← Reader.takeCString max)
  | takePrefixed width => return .bytes (← Reader.takePrefixed width)
  | lenEncInt => return .lenEncInt (← Reader.lenEncInt)
  | hasMore => return .bool (← Reader.hasMore)
  | peek => return .bytes (← Reader.unread)

/-- An operation that a cursor offers. -/
inductive CursorStep where
  | read (step : ReadStep)
  | rewind (n : Nat)
  deriving DecidableEq

/-- Steps back over `n` bytes; if fewer are behind the cursor it stays where it is. -/
def Reader.rewind {ε : Type} [OfReadError ε] (n : Nat) : Reader Cursor ε Unit := fun c =>
  match c.back? n with
  | some c' => .ok () c'
  | none => .error (OfReadError.ofReadError (.rewindTooFar n c.consumed)) c

/-- Performs a step of a cursor. -/
def CursorStep.run {ε : Type} [OfReadError ε] : CursorStep → Reader Cursor ε ReadValue
  | read step => step.run
  | rewind n => do
    Reader.rewind n
    return .nothing

/-! ## Writing -/

/-- A value to append to a buffer. -/
inductive WriteStep where
  | number (f : NumberFormat) (n : Nat)
  | lenEncInt (n : LenEncInt)
  deriving DecidableEq

/-- The bytes that a step appends. -/
def WriteStep.encode : WriteStep → Bytes
  | number f n => f.encode n
  | lenEncInt n => n.encode

/-- Appends to a buffer and gives the number of bytes appended. -/
abbrev Writer := StateM Bytes Nat

/-- Appends an unsigned number. -/
def Writer.number (f : NumberFormat) (n : Nat) : Writer := do
  modify (· ++ f.encode n)
  return f.width

/-- Appends a length-encoded integer: the tag, where there is one, then the payload. -/
def Writer.lenEncInt (n : LenEncInt) : Writer :=
  let tag (b : UInt8) : Writer := number (.little 1) b.toNat
  match n with
  | .null => tag 0xfb
  | .err => tag 0xff
  | .len1 n => tag n
  | .len3 n => return (← tag 0xfc) + (← number (.little 2) n.toNat)
  | .len4 n => return (← tag 0xfd) + (← number (.little 3) n.toNat)
  | .len9 n => return (← tag 0xfe) + (← number (.little 8) n.toNat)

/-- Performs a step. -/
def WriteStep.run : WriteStep → Writer
  | number f n => Writer.number f n
  | lenEncInt n => Writer.lenEncInt n

/-- The buffer after each step. -/
def WriteStep.trace : List WriteStep → Bytes → List Bytes
  | [], _ => []
  | step :: steps, buffer =>
    let (_, written) := step.run.run buffer
    written :: trace steps written

end Binlog
