import Binlog.Bytes.Number

/-!
# UTF-8 text

A run of bytes is cut into *pieces*: characters, and longest stretches that begin a character and
are not continued as they should be. Two readings are built on the pieces.

- **Strict** (`decode`): every piece must be a character; otherwise the error tells where the first
  other piece starts, and how long it is, or that the bytes end within it.
- **Lossy** (`decodeLossy`): a piece that is not a character is shown as one U+FFFD.

A first byte fixes how many bytes a character has and between which bounds the second lies; all
further bytes lie between 0x80 and 0xBF (`Shape`). The bounds shut out surrogates, numbers above
U+10FFFF and forms longer than needed.
-/

namespace Binlog.Utf8

/-! ## Shapes -/

/-- The length of a character and the bounds of its second byte. -/
structure Shape where
  size : Nat
  low : UInt8
  high : UInt8

/-- The shape that a first byte asks for, if a character may start with it. -/
def shape? (b : UInt8) : Option Shape :=
  if b < 0x80 then some ⟨1, 0x80, 0xbf⟩
  else if b < 0xc2 then none
  else if b < 0xe0 then some ⟨2, 0x80, 0xbf⟩
  else if b = 0xe0 then some ⟨3, 0xa0, 0xbf⟩
  else if b = 0xed then some ⟨3, 0x80, 0x9f⟩
  else if b < 0xf0 then some ⟨3, 0x80, 0xbf⟩
  else if b = 0xf0 then some ⟨4, 0x90, 0xbf⟩
  else if b < 0xf4 then some ⟨4, 0x80, 0xbf⟩
  else if b = 0xf4 then some ⟨4, 0x80, 0x8f⟩
  else none

/-- Whether a byte may stand third or fourth in a character. -/
def isTail (b : UInt8) : Bool := 0x80 ≤ b && b ≤ 0xbf

/-- How many bytes from the first on are as the shape asks. -/
def Shape.begun (shape : Shape) : (rest : Bytes) → Nat
  | [] => 1
  | b :: rest =>
    if shape.low ≤ b ∧ b ≤ shape.high then
      2 + ((rest.take (shape.size - 2)).takeWhile isTail).length
    else 1

/-! ## Pieces -/

/-- A character, or a stretch of bytes that is none. -/
inductive Piece where
  | char (c : Char)
  /-- The byte behind these `n` cannot continue them. -/
  | bad (n : Nat)
  /-- The input ends behind these `n`. -/
  | cut (n : Nat)
  deriving DecidableEq

namespace Piece

/-- The number of bytes. -/
def size : Piece → Nat
  | char c => c.utf8Size
  | bad n | cut n => n

/-- The character shown for a piece. -/
def shown : Piece → Char
  | char c => c
  | bad _ | cut _ => '\uFFFD'

end Piece

/-- The first character of the bytes. -/
def char? (bs : Bytes) : Option Char := (bs.take 4).toByteArray.utf8DecodeChar? 0

/-- The first piece of the bytes `b :: rest`. -/
def piece (b : UInt8) (rest : Bytes) : Piece :=
  match char? (b :: rest) with
  | some c => .char c
  | none =>
    match shape? b with
    | none => .bad 1
    | some shape =>
      let n := shape.begun rest
      if n = rest.length + 1 then .cut n else .bad n

/-- The pieces behind the first `skip` bytes, which belong to a piece already found. -/
def piecesFrom : (skip : Nat) → Bytes → List Piece
  | _, [] => []
  | skip + 1, _ :: rest => piecesFrom skip rest
  | 0, b :: rest => piece b rest :: piecesFrom ((piece b rest).size - 1) rest

/-- The pieces of a run of bytes. -/
def pieces (bs : Bytes) : List Piece := piecesFrom 0 bs

/-! ## Reading and writing -/

/-- Where bytes stop being UTF-8. -/
structure Error where
  /-- The length of the longest valid front. -/
  index : Nat
  /-- The length of the piece there, or none if the input ends within it. -/
  badLength : Option Nat
  deriving DecidableEq

/-- The text shown to a user. -/
def Error.message (e : Error) : String :=
  match e.badLength with
  | some n => s!"invalid utf-8 sequence of {n} bytes from index {e.index}"
  | none => s!"incomplete utf-8 byte sequence from index {e.index}"

/-- The characters of the pieces, of which the first starts at `index`. -/
def charsFrom : (index : Nat) → List Piece → Except Error (List Char)
  | _, [] => .ok []
  | index, .char c :: rest => (charsFrom (index + c.utf8Size) rest).map (c :: ·)
  | index, .bad n :: _ => .error ⟨index, some n⟩
  | index, .cut _ :: _ => .error ⟨index, none⟩

/-- The text that the bytes are. -/
def decode (bs : Bytes) : Except Error String := (charsFrom 0 (pieces bs)).map .ofList

/-- The text that the bytes are, with U+FFFD for every piece that is no character. -/
def decodeLossy (bs : Bytes) : String := .ofList ((pieces bs).map Piece.shown)

example : decode [0x61, 0xf0, 0x80] = .error ⟨1, some 1⟩ := rfl
example : decode [0x61, 0xe2, 0x82] = .error ⟨1, none⟩ := rfl
example : decodeLossy [0x61, 0xe2, 0x82, 0x62] = "a\uFFFDb" := by decide +kernel

/-- The bytes of a text. -/
def encode (s : String) : Bytes := s.toList.flatMap String.utf8EncodeChar

end Binlog.Utf8
