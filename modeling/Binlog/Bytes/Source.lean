import Binlog.Bytes.Number

/-!
# Byte sources

A reader runs over anything that shows the bytes not yet read and can split a number of them off
the front (`ByteSource`). Two sources are provided.

- A run of bytes is its own source: taking bytes leaves the rest.
- A `Cursor` keeps the whole buffer and an offset, so it can tell how many bytes are behind it and
  step back over them.

A step that cannot be done leaves the source as it is, and says exactly what was missing
(`ReadError`).
-/

namespace Binlog

/-! ## What can go wrong -/

/-- How many more bytes a failed read would have needed. -/
inductive Needed where
  /-- A delimiter was searched for and is not there. -/
  | unknown
  | size (missing : Nat)
  deriving DecidableEq

/-- Why bytes could not be read. -/
inductive ReadError where
  | incomplete (needed : Needed)
  | rewindTooFar (requested consumed : Nat)
  | badWidth (width : Nat)
  deriving DecidableEq

namespace Needed

/-- The text of the missing amount. -/
def message : Needed → String
  | unknown => "Unknown"
  | size missing => s!"Size({missing})"

end Needed

namespace ReadError

/-- The text shown to a user. -/
def message : ReadError → String
  | incomplete needed => s!"incomplete input: {needed.message}"
  | rewindTooFar requested consumed =>
    s!"invalid rewind: requested={requested}, consumed={consumed}"
  | badWidth width => s!"constraint error: invalid length prefix width {width}"

/-- Whether the input ended too early. -/
def isUnderrun : ReadError → Bool
  | incomplete _ => true
  | _ => false

end ReadError

/-! ## Sources -/

/-- Something that bytes are read from, front to back. -/
class ByteSource (σ : Type) where
  /-- The bytes not yet read. -/
  unread : σ → Bytes
  /-- Splits the first `n` unread bytes off, if there are as many. -/
  take? : (n : Nat) → σ → Option (Bytes × σ)

instance : ByteSource Bytes where
  unread bs := bs
  take? n bs := if n ≤ bs.length then some (bs.take n, bs.drop n) else none

/-- A buffer and the number of its bytes that have been consumed. -/
structure Cursor where
  buffer : Bytes
  offset : Nat
  offset_le : offset ≤ buffer.length
  deriving DecidableEq

namespace Cursor

/-- A cursor before the first byte. -/
def ofBytes (buffer : Bytes) : Cursor := ⟨buffer, 0, Nat.zero_le _⟩

/-- The number of bytes behind the cursor. -/
def consumed (c : Cursor) : Nat := c.offset

/-- The bytes ahead of the cursor. -/
def remaining (c : Cursor) : Bytes := c.buffer.drop c.offset

/-- The cursor `n` bytes further on, and the bytes passed over. -/
def advance? (n : Nat) (c : Cursor) : Option (Bytes × Cursor) :=
  if h : n ≤ c.buffer.length - c.offset then
    some (c.remaining.take n, ⟨c.buffer, c.offset + n, by have := c.offset_le; omega⟩)
  else
    none

/-- The cursor `n` bytes back, if as many are behind it. -/
def back? (n : Nat) (c : Cursor) : Option Cursor :=
  if n ≤ c.offset then
    some ⟨c.buffer, c.offset - n, by have := c.offset_le; omega⟩
  else
    none

instance : ByteSource Cursor where
  unread := remaining
  take? := advance?

end Cursor

end Binlog
