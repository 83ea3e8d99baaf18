import Binlog.Bytes.Reader
import Binlog.Text.Utf8
import Binlog.Text.Hex

/-!
# What can go wrong in a log

Every cause of a failed decoding is a constructor of `DecodeError`; its wording is in
`DecodeError.message`. An *underrun* means that the bytes ended too early, so a reader that collects
them piece by piece may wait for more.
-/

namespace Binlog

/-- Why a packed decimal could not be read. -/
inductive DecimalError where
  | outOfRange (precision scale : Nat)
  | tooShort (precision scale size left : Nat)
  deriving DecidableEq

/-- The text shown to a user. -/
def DecimalError.message : DecimalError → String
  | outOfRange precision scale =>
    s!"invalid precision and scale: precision={precision}, scale={scale}"
  | tooShort precision scale size left =>
    s!"insufficient bytes: precision={precision}, scale={scale}, bin_len={size}, actual_len={left}"

/-- Why an event, or a part of one, could not be decoded. -/
inductive DecodeError where
  | read (cause : ReadError)
  | unknownStatusVariable (key : UInt8)
  | malformedDecimal (cause : DecimalError)
  | malformedText (cause : Utf8.Error)
  | invalidServerVersion (text : String)
  /-- A decoder left bytes of the body unread. -/
  | eventSizeMismatch (expected consumed : Nat)
  | invalidEventLength (length : UInt32)
  | negativeSourceCount (count : Int64)
  deriving DecidableEq

namespace DecodeError

instance : OfReadError DecodeError := ⟨read⟩

/-- The text shown to a user. -/
def message : DecodeError → String
  | read cause => "parse error: " ++ cause.message
  | unknownStatusVariable key => "unknown status variable: 0x" ++ Hex.text [key]
  | malformedDecimal cause => "malformed decimal: " ++ cause.message
  | malformedText cause => "utf8 string error: " ++ cause.message
  | invalidServerVersion text => "invalid server version: " ++ text
  | eventSizeMismatch expected consumed =>
    s!"event size mismatch: expected={expected}, consumed={consumed}"
  | invalidEventLength length => s!"invalid event length: {length.toNat}"
  | negativeSourceCount count =>
    s!"binlog event error: invalid number of sids in gtid set: {count.toInt}"

/-- Whether the bytes ended too early. -/
def isUnderrun : DecodeError → Bool
  | read cause => cause.isUnderrun
  | _ => false

end DecodeError

/-! ## Text in an event -/

namespace Reader

variable {σ : Type}

/-- The text that the bytes are, which must be UTF-8. -/
def strictText (bs : Bytes) : Reader σ DecodeError String :=
  match Utf8.decode bs with
  | .ok s => return s
  | .error cause => throw (.malformedText cause)

/-- A text behind its length of one byte, absent if that is zero. -/
def optionalText [ByteSource σ] : Reader σ DecodeError (Option String) := do
  let bs ← takePrefixed 1
  if bs.isEmpty then return none else return some (← strictText bs)

end Reader

end Binlog
