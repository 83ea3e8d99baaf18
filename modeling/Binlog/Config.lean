import Binlog.Toml.Document

/-!
# Configuration

What a reader of a log is told before it has seen a format description. The options are names at the
top of a TOML document. Each may be given once, with a value of its kind; others are ignored.
-/

namespace Binlog

/-- The options of a parser. -/
structure Config where
  /-- Whether events end with a checksum. -/
  checksum : Bool := false
  /-- Whether checksums are verified. -/
  validateChecksum : Bool := true
  /-- The version text of the server. -/
  serverVersion : Option String := none
  deriving DecidableEq

namespace Config

/-- The value of an option that is given at most once, and a value of its kind then. -/
def option? {α : Type} (kind : Toml.Value → Option α) (default : α) : List Toml.Value → Option α
  | [] => some default
  | [v] => kind v
  | _ => none

/-- A truth value. -/
def bool? : Toml.Value → Option Bool
  | .bool b => some b
  | _ => none

/-- A text. -/
def text? : Toml.Value → Option String
  | .string s => some s
  | _ => none

/-- The configuration that a document holds. -/
def ofDocument? (d : Toml.Document) : Option Config := do
  let checksum ← option? bool? false (d.values "checksum")
  let validateChecksum ← option? bool? true (d.values "validate_checksum")
  let serverVersion ← option? (fun v => (text? v).map some) none (d.values "server_version")
  some { checksum, validateChecksum, serverVersion }

/-- The configuration that a text holds. -/
def ofText? (s : String) : Option Config := (Toml.Document.ofText? s).bind ofDocument?

example : ofText? "checksum = true # on" = some { checksum := true } := by decide +kernel

end Config

end Binlog
