import Binlog.Toml.Moment

/-!
# TOML: documents

A document is a list of lines: keys with values, and headers that name the table which the lines
below belong to. A key or a header is a path of one or more names.

**What a document gives.** For each name at the top, the values given to it, in order
(`Document.values`). A longer path makes its first name a table. A name may be given twice as far as
the grammar goes; who asks for it decides. A path may not pass through a value that is no table.

**Headers.** A header may not open the table of an earlier one (`mayOpen`). An array of tables gets
an element from each of its headers, and inside of a new element everything may be opened again.

Values inside of arrays and tables are recognised and dropped.
-/

namespace Binlog.Toml

/-! ## Values -/

/-- A value, of which only the kind is kept where no option can have it. -/
inductive Value where
  | bool (b : Bool)
  | string (s : String)
  /-- A number, a date or a time. -/
  | scalar
  | array
  | table
  deriving DecidableEq

/-- A path of names. -/
abbrev Path := List String

/-- Whether a path may be added to those in a table: it must not pass through a path that ends. -/
def passes : (earlier : List Path) → Path → Bool
  | _, [] => true
  | _, [_] => true
  | earlier, name :: path =>
    let same := earlier.filterMap fun
      | n :: rest => if n = name then some rest else none
      | [] => none
    match same.head? with
    | none => true
    | some [] => false
    | some (_ :: _) => passes (same.filter (!·.isEmpty)) path

/-- A name, bare or as a string on one line. -/
def name? (cs : Chars) : Option (String × Chars) :=
  match string? cs with
  | some (form, s, rest) => if form.multiline then none else some (s, rest)
  | none => (word? cs).map fun (w, rest) => (.ofList w, rest)

/-- Names with points between them, and blanks around those. -/
def path? : (fuel : Nat) → Chars → Option (Path × Chars)
  | 0, _ => none
  | fuel + 1, cs => do
    let (name, rest) ← name? cs
    match skipSpaces rest with
    | '.' :: rest =>
      let (path, rest) ← path? fuel (skipSpaces rest)
      some (name :: path, rest)
    | rest => some ([name], rest)

/-- The text behind an equals sign and the blanks around it. -/
def equals? (cs : Chars) : Option Chars :=
  match skipSpaces cs with
  | '=' :: rest => some (skipSpaces rest)
  | _ => none

/-- A truth value, a number, a date or a time. -/
def plain? (cs : Chars) : Option (Value × Chars) :=
  match word? cs with
  | some (['t', 'r', 'u', 'e'], rest) => some (.bool true, rest)
  | some (['f', 'a', 'l', 's', 'e'], rest) => some (.bool false, rest)
  | _ => (scalar? cs).map fun rest => (.scalar, rest)

mutual

/-- The value at the front of a text. -/
def value? : (fuel : Nat) → Chars → Option (Value × Chars)
  | 0, _ => none
  | fuel + 1, cs =>
    match cs with
    | '[' :: rest => (items? fuel rest).map fun rest => (.array, rest)
    | '\x7b' :: rest =>
      match skipSpaces rest with
      | '\x7d' :: rest => some (.table, rest)
      | rest => (fields? fuel [] rest).map fun rest => (.table, rest)
    | _ =>
      match string? cs with
      | some (_, s, rest) => some (.string s, rest)
      | none => plain? cs

/-- The text behind the values of an array and its closing bracket. A comma may follow the last. -/
def items? : (fuel : Nat) → Chars → Option Chars
  | 0, _ => none
  | fuel + 1, cs =>
    match skipLines cs.length cs with
    | ']' :: rest => some rest
    | cs => do
      let (_, rest) ← value? fuel cs
      match skipLines rest.length rest with
      | ',' :: rest => items? fuel rest
      | ']' :: rest => some rest
      | _ => none

/-- The text behind the fields of a table on one line and its closing brace, given the paths of
those before. -/
def fields? : (fuel : Nat) → (earlier : List Path) → Chars → Option Chars
  | 0, _, _ => none
  | fuel + 1, earlier, cs => do
    let (path, rest) ← path? cs.length cs
    let (_, rest) ← value? fuel (← equals? rest)
    if !passes earlier path then none
    else
      match skipSpaces rest with
      | ',' :: rest => fields? fuel (earlier ++ [path]) (skipSpaces rest)
      | '\x7d' :: rest => some rest
      | _ => none

end

/-! ## Lines -/

/-- What opens a table, or one of an array of tables. -/
structure Header where
  path : Path
  array : Bool
  deriving DecidableEq

/-- A line with content. -/
inductive Line where
  | entry (path : Path) (value : Value)
  | header (header : Header)
  deriving DecidableEq

/-- The header behind its first bracket. -/
def header? (cs : Chars) : Option (Line × Chars) := do
  let (array, cs) := match cs with
    | '[' :: rest => (true, rest)
    | cs => (false, cs)
  let (path, rest) ← path? cs.length (skipSpaces cs)
  match array, rest with
  | false, ']' :: rest => some (.header ⟨path, false⟩, ← endOfLine? rest)
  | true, ']' :: ']' :: rest => some (.header ⟨path, true⟩, ← endOfLine? rest)
  | _, _ => none

/-- The line at the front. -/
def line? : Chars → Option (Line × Chars)
  | '[' :: cs => header? cs
  | cs => do
    let (path, rest) ← path? cs.length cs
    let (v, rest) ← value? (rest.length + 1) (← equals? rest)
    some (.entry path v, ← endOfLine? rest)

/-- All lines of a text. -/
def lines? : (fuel : Nat) → Chars → Option (List Line)
  | 0, _ => none
  | fuel + 1, cs =>
    match skipLines cs.length cs with
    | [] => some []
    | cs => do
      let (line, rest) ← line? cs
      let lines ← lines? fuel rest
      some (line :: lines)

/-! ## Headers -/

/-- Whether a header starts an element of an array that the table at a path is inside of. -/
def Header.renews (h : Header) (path : Path) : Bool :=
  h.array && h.path.isPrefixOf path && h.path != path

/-- Of the headers so far, the latest first, those at a path and below it in the same element of
each array around it. -/
def headersFrom (path : Path) (earlier : List Header) : List Header :=
  (earlier.takeWhile (!·.renews path)).filter fun h => path.isPrefixOf h.path

/-- Whether a header may follow others, of which the latest is the first. One for an array must be
the first at or below its path, or follow another for that array; one for a table must be the first
at its path. -/
def mayOpen (earlier : List Header) (h : Header) : Bool :=
  let inside := headersFrom h.path earlier
  if h.array then inside.getLast?.all (· == h) else inside.all (·.path != h.path)

/-! ## Documents -/

/-- The values given to names at the top, in order. -/
structure Document where
  entries : List (String × Value)
  deriving DecidableEq

namespace Document

/-- What has been seen of a document: the entries so far, the headers with the latest first, and the
paths of the entries in the table that is open. -/
structure Progress where
  entries : List (String × Value) := []
  headers : List Header := []
  paths : List Path := []

/-- The name and the value that a path gives to the table it starts from. -/
def topEntry (value : Value) : Path → List (String × Value)
  | [] => []
  | [name] => [(name, value)]
  | name :: _ => [(name, .table)]

/-- Takes a line into account. -/
def Progress.add? (p : Progress) : Line → Option Progress
  | .entry path v =>
    if !passes p.paths path then none
    else
      let entries := if p.headers.isEmpty then p.entries ++ topEntry v path else p.entries
      some { p with entries, paths := p.paths ++ [path] }
  | .header h =>
    if mayOpen p.headers h then
      some { entries := p.entries ++ topEntry .table h.path, headers := h :: p.headers,
             paths := [] }
    else none

/-- The document that a text is. A byte order mark in front does not count. -/
def ofText? (s : String) : Option Document := do
  let cs := foldLineEnds s.toList
  let cs := match cs with
    | '\uFEFF' :: rest => rest
    | cs => cs
  let lines ← lines? (cs.length + 1) cs
  let p ← lines.foldlM Progress.add? {}
  some ⟨p.entries⟩

/-- The values given to a name. -/
def values (d : Document) (name : String) : List Value :=
  d.entries.filterMap fun (n, v) => if n = name then some v else none

example : ofText? "[a.b]\n[a]\n[a]" = none := by decide +kernel

example : (ofText? "[[a]]\n[a.b]\n[[a]]\n[a.b]").isSome := by decide +kernel

end Document

end Binlog.Toml
