import Binlog.Config
import Binlog.Frame

/-!
# Decoding events

A parser knows what an event does not tell of itself: whether the log is written with checksums,
and by which version of a server. It has that from its configuration or from the last format
description.

**Order of errors.** The declared length is looked at first, then whether the bytes suffice, then
whether they hold a checksum, then the body. A wrong checksum is no error: the event says so.

**Streams** (`Parser.run`). A format description that was decoded fixes how the following events are
decoded; all other events and all errors leave the parser as it is.
-/

namespace Binlog

/-- What has to be known to decode an event. -/
structure Parser where
  /-- Whether events end with a checksum. -/
  checksum : Bool
  /-- Whether checksums are verified. -/
  validate : Bool
  /-- The version of the server, if it is known. -/
  serverVersion : Option ServerVersion
  deriving DecidableEq

namespace Parser

/-- The parser that a configuration asks for. -/
def ofConfig (config : Config) : Except DecodeError Parser :=
  match config.serverVersion with
  | none => .ok ⟨config.checksum, config.validateChecksum, none⟩
  | some text =>
    match ServerVersion.ofText? text with
    | some v => .ok ⟨config.checksum, config.validateChecksum, some v⟩
    | none => .error (.invalidServerVersion text)

/-- The parser for the events behind a format description. -/
def ofFormatDescription (f : FormatDescription) (validate : Bool) : Parser :=
  ⟨f.checksumEnabled, validate, some f.version⟩

/-! ## One event -/

/-- The frame of an event in what follows its header. Bytes behind the declared length are ignored.
-/
def frame (p : Parser) (h : Header) (bs : Bytes) : Except DecodeError Frame :=
  if h.eventLength.toNat < Header.size then
    .error (.invalidEventLength h.eventLength)
  else do
    let (data, _) ← bs.read (Reader.take h.dataLength)
    match Frame.ofData? (Footer.ofData p.checksum h.eventType data) data with
    | some f => return f
    | none => throw (.invalidEventLength h.eventLength)

/-- How the body behind a header is read. -/
def payload (p : Parser) (h : Header) : Reader Bytes DecodeError Payload :=
  Payload.read h.serverId p.serverVersion (.ofType h.eventType)

/-- Decodes what follows a header. -/
def decode (p : Parser) (h : Header) (bs : Bytes) : Except DecodeError Event := do
  let f ← p.frame h bs
  f.read p.validate h (p.payload h)

/-- Decodes an event from its first byte on. -/
def parse (p : Parser) (bs : Bytes) : Except DecodeError Event := do
  let (h, rest) ← bs.read Header.read
  p.decode h rest

/-! ## Streams -/

/-- The parser for what follows an outcome. -/
def next (p : Parser) (validate : Bool) : Except DecodeError Event → Parser
  | .ok e =>
    match e.data with
    | .formatDescription f => .ofFormatDescription f validate
    | _ => p
  | .error _ => p

/-- Decodes events in turn, and gives each outcome with the parser for what follows it. -/
def run (validate : Bool) : Parser → List Bytes → List (Except DecodeError Event × Parser)
  | _, [] => []
  | p, bs :: rest =>
    let outcome := p.parse bs
    let following := p.next validate outcome
    (outcome, following) :: run validate following rest

end Parser

end Binlog
