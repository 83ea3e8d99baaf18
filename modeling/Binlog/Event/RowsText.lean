import Binlog.Error

/-!
# Statements beside row changes

Where the log holds changed rows instead of statements, the text of the statement may be given as a
comment, by either family of servers in its own form.
-/

namespace Binlog

variable {σ ε : Type} [ByteSource σ] [OfReadError ε]

/-- The text of a statement, behind a length that stops counting at 255 and so is not used. -/
structure RowsQuery where
  declaredLength : UInt8
  text : String
  deriving DecidableEq

/-- Reads the text of a statement, which need not be valid UTF-8. -/
def RowsQuery.read : Reader σ ε RowsQuery := do
  let declaredLength ← Reader.u8
  let text ← Reader.rest
  return { declaredLength, text := Utf8.decodeLossy text }

/-- The text of a statement, kept as bytes. -/
structure AnnotateRows where
  statement : Bytes
  deriving DecidableEq

/-- Reads the text of a statement. -/
def AnnotateRows.read : Reader σ ε AnnotateRows := do
  let statement ← Reader.rest
  return { statement }

/-- The bytes of the text of a statement. -/
def AnnotateRows.encode (a : AnnotateRows) : Bytes := a.statement

end Binlog
