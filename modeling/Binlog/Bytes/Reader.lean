import Binlog.Bytes.Source
import Binlog.Bytes.LenEncInt

/-!
# Readers

A reader takes a value off the front of a byte source, or fails and leaves the source where the
failing step found it. Everything here is derived from the two operations of `ByteSource`, so it
means the same over every source.

**Errors.** A reader of bare numbers fails with a `ReadError`; a decoder has causes of its own
beside those. `OfReadError` embeds the former in the latter, and the readers below work for either.

**Loops.** `Reader.count` reads a given number of items, and stops at the first that fails, so a
huge count over a short input costs nothing. `Reader.untilEnd` reads items until none are left.
-/

namespace Binlog

/-- Errors among which are those of reading bytes. -/
class OfReadError (ε : Type) where
  ofReadError : ReadError → ε

instance : OfReadError ReadError := ⟨id⟩

/-- A computation over a source of type `σ` that gives an `α` or fails with an `ε`. -/
abbrev Reader (σ ε α : Type) := EStateM ε σ α

namespace Reader

variable {σ ε α : Type} [ByteSource σ] [OfReadError ε]

/-! ## Runs of bytes -/

/-- Fails without consuming anything. -/
def fail (e : ReadError) : Reader σ ε α := throw (OfReadError.ofReadError e)

/-- The bytes ahead, which stay there. -/
def unread : Reader σ ε Bytes := do return ByteSource.unread (← get)

/-- The number of bytes ahead. -/
def left : Reader σ ε Nat := do return (← unread).length

/-- Whether a byte is ahead. -/
def hasMore : Reader σ ε Bool := do return !(← unread).isEmpty

/-- The next `n` bytes; if there are fewer, nothing is consumed. -/
def take (n : Nat) : Reader σ ε Bytes := fun s =>
  match ByteSource.take? n s with
  | some (bs, rest) => .ok bs rest
  | none =>
    .error (OfReadError.ofReadError (.incomplete (.size (n - (ByteSource.unread s).length)))) s

/-- Passes over `n` bytes. -/
def skip (n : Nat) : Reader σ ε Unit := do
  let _ ← take n
  return ()

/-- All bytes ahead. -/
def rest : Reader σ ε Bytes := do take (← left)

/-- The bytes up to the first `b`, which is consumed too and returned if `inclusive`. -/
def takeUntil (b : UInt8) (inclusive : Bool) : Reader σ ε Bytes := do
  match (← unread).idxOf? b with
  | none => fail (.incomplete .unknown)
  | some i =>
    let bs ← take (i + 1)
    return if inclusive then bs else bs.take i

/-- The bytes up to a NUL among the next `max`, which is consumed but not returned; without such a
NUL, the next `max` bytes. -/
def takeCString (max : Nat) : Reader σ ε Bytes := do
  match ((← unread).take max).idxOf? 0 with
  | some i =>
    let bs ← take (i + 1)
    return bs.take i
  | none => take max

/-! ## Numbers -/

/-- An unsigned number. The readers below give it as a word, lowest byte first. -/
def number (f : NumberFormat) : Reader σ ε Nat := do return f.decode (← take f.width)

/-- A byte. -/
def u8 : Reader σ ε UInt8 := do return .ofNat (← number (.little 1))

/-- A number of 2 bytes. -/
def u16 : Reader σ ε UInt16 := do return .ofNat (← number (.little 2))

/-- A number of 3 bytes. -/
def u24 : Reader σ ε UInt32 := do return .ofNat (← number (.little 3))

/-- A number of 4 bytes. -/
def u32 : Reader σ ε UInt32 := do return .ofNat (← number (.little 4))

/-- A number of 7 bytes. -/
def u56 : Reader σ ε UInt64 := do return .ofNat (← number (.little 7))

/-- A number of 8 bytes. -/
def u64 : Reader σ ε UInt64 := do return .ofNat (← number (.little 8))

/-- A number of 8 bytes in two's complement. -/
def i64 : Reader σ ε Int64 := do return (← u64).toInt64

/-- A length-encoded integer; a tag whose payload is cut stays consumed. -/
def lenEncInt : Reader σ ε LenEncInt := do
  let tag ← u8
  match tag with
  | 0xfb => return .null
  | 0xfc => return .len3 (← u16)
  | 0xfd => return .len4 (← u24)
  | 0xfe => return .len9 (← u64)
  | 0xff => return .err
  | n => return .len1 n

/-- The widths that a length in front of a run of bytes may have. -/
def prefixWidths : List Nat := [1, 2, 3, 4, 8]

/-- The bytes behind a length of `width` bytes; a length whose bytes are cut stays consumed. -/
def takePrefixed (width : Nat) : Reader σ ε Bytes := do
  if width ∈ prefixWidths then take (← number (.little width)) else fail (.badWidth width)

/-! ## Repetition -/

/-- The next `n` items. -/
def count (item : Reader σ ε α) : (n : Nat) → Reader σ ε (List α)
  | 0 => return []
  | n + 1 => do
    let x ← item
    let xs ← count item n
    return x :: xs

/-- Items while bytes are ahead, at most `fuel` of them. -/
def untilEndWithin (item : Reader σ ε α) : (fuel : Nat) → Reader σ ε (List α)
  | 0 => return []
  | fuel + 1 => do
    if ← hasMore then
      let x ← item
      let xs ← untilEndWithin item fuel
      return x :: xs
    else
      return []

/-- Items until no byte is ahead. Each item must consume a byte, so there are no more of them than
bytes. -/
def untilEnd (item : Reader σ ε α) : Reader σ ε (List α) := do
  untilEndWithin item (← left)

/-! ## Running -/

/-- The value, or the error, and the source afterwards. -/
def result (r : Reader σ ε α) (s : σ) : Except ε α × σ :=
  match r s with
  | .ok a rest => (.ok a, rest)
  | .error e rest => (.error e, rest)

/-- Reads in turn, each where the one before stopped, whether that one failed or not. -/
def trace : List (Reader σ ε α) → σ → List (Except ε α × σ)
  | [], _ => []
  | r :: rs, s => r.result s :: trace rs (r.result s).2

end Reader

/-- Reads the front of a run of bytes and gives the rest beside the value. -/
def Bytes.read {ε α : Type} (bs : Bytes) (r : Reader Bytes ε α) : Except ε (α × Bytes) :=
  match r bs with
  | .ok a rest => .ok (a, rest)
  | .error e _ => .error e

end Binlog
