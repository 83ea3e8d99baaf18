import Binlog.Crc32
import Binlog.Event

/-!
# Frames

Behind the header of an event stand its body and, if the log is written with checksums, four bytes
of checksum over header and body (`Footer`). Cutting the data in two gives a `Frame`.

A format description tells for itself whether it has a checksum. Its algorithm byte may name another
algorithm than CRC-32; then the four bytes are there, but cannot be verified.
-/

namespace Binlog

/-- What stands behind a body. -/
inductive Footer where
  | absent
  /-- A checksum of an algorithm that is not known. -/
  | unverifiable
  | crc32
  deriving DecidableEq

namespace Footer

/-- The number of bytes of a checksum. -/
def size : Nat := 4

/-- What the algorithm byte of a format description says about its own checksum. -/
def ofAlgorithm : Option UInt8 → Footer
  | none => absent
  | some a =>
    if a = FormatDescription.undefinedAlgorithm then absent
    else if a = FormatDescription.crc32Algorithm then crc32
    else unverifiable

/-- The footer in the data of an event of a type, in a log with or without checksums. -/
def ofData (checksum : Bool) (type : EventType) (data : Bytes) : Footer :=
  if type = .formatDescription then ofAlgorithm (FormatDescription.peekAlgorithm data)
  else if checksum then crc32
  else absent

end Footer

/-- The data of an event, cut in two. -/
structure Frame where
  footer : Footer
  body : Bytes
  /-- The number in the footer. -/
  crc32 : Option UInt32
  deriving DecidableEq

namespace Frame

/-- Cuts the footer off, if the data is long enough. -/
def ofData? (footer : Footer) (data : Bytes) : Option Frame :=
  if footer = .absent then some ⟨footer, data, none⟩
  else if data.length < Footer.size then none
  else
    let n := data.length - Footer.size
    some ⟨footer, data.take n, some (.ofNat (Bytes.toNatLE (data.drop n)))⟩

/-- The verdict on the footer behind a header and the body. -/
def verdict (f : Frame) (validate : Bool) (h : Header) : ChecksumState :=
  match f.crc32 with
  | some expected =>
    if f.footer = .crc32 ∧ validate then
      if Crc32.checksum (h.encode ++ f.body) = expected then .valid else .invalid
    else .notChecked
  | none => .notChecked

/-- The event that the frame holds, given how its body is read. A body of which bytes are left over
is an error. -/
def read (f : Frame) (validate : Bool) (h : Header) (r : Reader Bytes DecodeError Payload) :
    Except DecodeError Event := do
  let (data, rest) ← f.body.read r
  let bytesConsumed := f.body.length - rest.length
  if bytesConsumed = f.body.length then
    return { header := h, data, crc32 := f.crc32, checksum := f.verdict validate h,
             eventSize := f.body.length, bytesConsumed }
  else
    throw (.eventSizeMismatch f.body.length bytesConsumed)

end Frame

end Binlog
