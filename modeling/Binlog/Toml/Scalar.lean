import Binlog.Power

/-!
# TOML: words, strings and numbers

A scanner takes what it looks for off the front of a text and gives the rest, or fails. Line ends
are newlines alone; `foldLineEnds` makes them so.

**Strings** come in four forms. Between double quotes a backslash starts an escape, between single
quotes it stands for itself. Quotes written three times enclose a string of several lines, whose
first newline does not count.

**Numbers** are recognised and not evaluated, as no option has one for its value.
-/

namespace Binlog.Toml

/-- A text, seen from where a scanner stands. -/
abbrev Chars := List Char

/-- Every carriage return in front of a newline dropped. -/
def foldLineEnds : Chars → Chars
  | [] => []
  | [c] => [c]
  | c :: d :: cs =>
    if c = '\r' ∧ d = '\n' then foldLineEnds (d :: cs) else c :: foldLineEnds (d :: cs)

/-! ## Blanks and words -/

/-- Whether a character separates words on a line. -/
def isSpace (c : Char) : Bool := c == ' ' || c == '\t'

/-- The text behind blanks. -/
def skipSpaces (cs : Chars) : Chars := cs.dropWhile isSpace

/-- Whether a character may stand in a comment. -/
def isCommentChar (c : Char) : Bool := c == '\t' || ' ' ≤ c

/-- The text behind a comment, if there is one. -/
def skipComment : Chars → Chars
  | '#' :: cs => cs.dropWhile isCommentChar
  | cs => cs

/-- The text behind what may follow a line's content: blanks, a comment, and the end of the line. -/
def endOfLine? (cs : Chars) : Option Chars :=
  match skipComment (skipSpaces cs) with
  | [] => some []
  | '\n' :: rest => some rest
  | _ => none

/-- The text behind blanks, comments and line ends. -/
def skipLines : (fuel : Nat) → Chars → Chars
  | 0, cs => cs
  | fuel + 1, cs =>
    match skipComment (skipSpaces cs) with
    | '\n' :: rest => skipLines fuel rest
    | rest => rest

/-- Whether a character may stand in a word, that is in a bare key or a number. -/
def isWordChar (c : Char) : Bool := c.isAlphanum || c == '-' || c == '_'

/-- The word at the front, if there is one. -/
def word? (cs : Chars) : Option (Chars × Chars) :=
  match cs.takeWhile isWordChar with
  | [] => none
  | w => some (w, cs.dropWhile isWordChar)

/-! ## Strings -/

/-- Whether a character may stand in a string as it is. -/
def isStringChar (c : Char) : Bool := c == '\t' || (' ' ≤ c && c != '\x7f')

/-- The value of a hexadecimal digit. -/
def hexDigit? (c : Char) : Option Nat :=
  if c.isDigit then some (c.toNat - 48)
  else if 'a' ≤ c ∧ c ≤ 'f' then some (c.toNat - 87)
  else if 'A' ≤ c ∧ c ≤ 'F' then some (c.toNat - 55)
  else none

/-- The character whose code point is `digits` hexadecimal digits. -/
def codePoint? (digits : Nat) (cs : Chars) : Option (Char × Chars) := do
  let values ← (cs.take digits).mapM hexDigit?
  let n := values.foldl (16 * · + ·) 0
  if values.length = digits ∧ n.isValidChar then some (.ofNat n, cs.drop digits) else none

/-- The character that an escape stands for, with the text behind it. -/
def escape? : Chars → Option (Char × Chars)
  | '"' :: cs => some ('"', cs)
  | '\\' :: cs => some ('\\', cs)
  | 'b' :: cs => some ('\x08', cs)
  | 'f' :: cs => some ('\x0c', cs)
  | 'n' :: cs => some ('\n', cs)
  | 'r' :: cs => some ('\r', cs)
  | 't' :: cs => some ('\t', cs)
  | 'u' :: cs => codePoint? 4 cs
  | 'U' :: cs => codePoint? 8 cs
  | _ => none

/-- The text behind an escaped line end and the blanks and line ends after it. -/
def continuation? (cs : Chars) : Option Chars :=
  match skipSpaces cs with
  | '\n' :: rest => some (rest.dropWhile fun c => isSpace c || c == '\n')
  | _ => none

/-- The form of a string. -/
structure StringForm where
  quote : Char
  /-- Whether the quotes are written three times. -/
  multiline : Bool
  deriving DecidableEq

/-- Whether a backslash starts an escape. -/
def StringForm.escapes (form : StringForm) : Bool := form.quote == '"'

/-- The quotes at the front of a text, no more than two. -/
def extraQuotes (quote : Char) (cs : Chars) : Chars := (cs.take 2).takeWhile (· == quote)

/-- The characters of a string up to its closing quotes, and the text behind these. -/
def stringBody (form : StringForm) : (fuel : Nat) → Chars → Option (Chars × Chars)
  | 0, _ => none
  | _, [] => none
  | fuel + 1, c :: cs =>
    let next (c : Char) (cs : Chars) : Option (Chars × Chars) := do
      let (s, rest) ← stringBody form fuel cs
      some (c :: s, rest)
    if c = form.quote then
      if form.multiline then
        if cs.take 2 = [c, c] then
          let extra := extraQuotes c (cs.drop 2)
          some (extra, cs.drop (2 + extra.length))
        else next c cs
      else some ([], cs)
    else if c = '\\' ∧ form.escapes then
      match if form.multiline then continuation? cs else none with
      | some rest => stringBody form fuel rest
      | none => do
        let (e, rest) ← escape? cs
        next e rest
    else if isStringChar c ∨ (c = '\n' ∧ form.multiline) then next c cs
    else none

/-- The string whose first quote has been taken. -/
def stringBehind? (quote : Char) (cs : Chars) : Option (StringForm × String × Chars) := do
  let form : StringForm := ⟨quote, cs.take 2 = [quote, quote]⟩
  let body := if form.multiline then cs.drop 2 else cs
  let body := if form.multiline ∧ body.take 1 = ['\n'] then body.drop 1 else body
  let (s, rest) ← stringBody form (body.length + 1) body
  some (form, .ofList s, rest)

/-- The string at the front, if there is one, and its form. -/
def string? : Chars → Option (StringForm × String × Chars)
  | '"' :: cs => stringBehind? '"' cs
  | '\'' :: cs => stringBehind? '\'' cs
  | _ => none

/-! ## Numbers -/

/-- Digits with single underscores between them, of which one may have been taken, and what follows
them. -/
def digitRun? (isDigit : Char → Bool) : (digitTaken : Bool) → Chars → Option (Chars × Chars)
  | true, [] => some ([], [])
  | false, [] => none
  | digitTaken, c :: cs =>
    if isDigit c then do
      let (ds, rest) ← digitRun? isDigit true cs
      some (c :: ds, rest)
    else if c = '_' then
      if digitTaken then digitRun? isDigit false cs else none
    else if digitTaken then some ([], c :: cs)
    else none

/-- Decimal digits and what follows them. -/
def decimalRun? (cs : Chars) : Option (Chars × Chars) := digitRun? Char.isDigit false cs

/-- The word without a minus sign in front of it, and whether it has one. -/
def splitMinus : Chars → Bool × Chars
  | '-' :: cs => (true, cs)
  | cs => (false, cs)

/-- The digits before the point, of which the first is no zero unless it is the only one. -/
def wholeRun? (cs : Chars) : Option (Chars × Chars) := do
  let (ds, rest) ← decimalRun? cs
  if ds.length > 1 ∧ ds.head? = some '0' then none else some (ds, rest)

/-- The number that digits are written for. -/
def value (ds : Chars) : Nat := Nat.ofDigitChars 10 ds 0

/-- Whether `n * 10 ^ exponent` is below the numbers that round to infinity. -/
def isFinite (n : Nat) (exponent : Int) : Bool :=
  let bound := 2 ^ 1024 - 2 ^ 970
  if n = 0 then true
  else if exponent > 310 then false
  else if 0 ≤ exponent then n * 10 ^ exponent.toNat < bound
  else if (-exponent).toNat > (Nat.toDigits 10 n).length then true
  else n < bound * 10 ^ (-exponent).toNat

/-- The text behind a number whose digits before the point and behind it are given, and that may go
on with an exponent. -/
def exponent? (whole places tail rest : Chars) : Option Chars := do
  let (negative, ds, rest) ← match tail with
    | [] => some (false, ['0'], rest)
    | e :: digits =>
      if e ≠ 'e' ∧ e ≠ 'E' then none
      else if digits.isEmpty then do
        let (w, rest) ← word? (match rest with
          | '+' :: cs => cs
          | cs => cs)
        let (ds, behind) ← decimalRun? w
        if behind.isEmpty then some (false, ds, rest) else none
      else do
        let (negative, digits) := splitMinus digits
        let (ds, behind) ← decimalRun? digits
        if behind.isEmpty then some (negative, ds, rest) else none
  let exponent : Int := if negative then -(value ds : Int) else value ds
  if isFinite (value (whole ++ places)) (exponent - places.length) then some rest else none

/-- The text behind an integer in another base. -/
def based? (base : Nat) (digits rest : Chars) : Option Chars := do
  let isDigit (c : Char) : Bool := (hexDigit? c).any (· < base)
  let (ds, behind) ← digitRun? isDigit false digits
  let n := (ds.filterMap hexDigit?).foldl (base * · + ·) 0
  if behind.isEmpty ∧ n < 2 ^ 63 then some rest else none

/-- The text behind a decimal number that starts with the word `w`. -/
def decimal? (w rest : Chars) : Option Chars := do
  let (negative, digits) := splitMinus w
  let (whole, tail) ← wholeRun? digits
  if tail.isEmpty then
    match rest with
    | '.' :: cs =>
      let (after, rest) ← word? cs
      let (places, tail) ← decimalRun? after
      exponent? whole places tail rest
    | _ =>
      let limit := if negative then 2 ^ 63 else 2 ^ 63 - 1
      if value whole ≤ limit then some rest else none
  else exponent? whole [] tail rest

/-- The text behind a number. -/
def number? (cs : Chars) : Option Chars := do
  let (w, rest) ← word? (match cs with
    | '+' :: cs => cs
    | cs => cs)
  match w with
  | '0' :: 'x' :: digits => based? 16 digits rest
  | '0' :: 'o' :: digits => based? 8 digits rest
  | '0' :: 'b' :: digits => based? 2 digits rest
  | _ =>
    let name := (splitMinus w).2
    if name = ['i', 'n', 'f'] ∨ name = ['n', 'a', 'n'] then some rest else decimal? w rest

end Binlog.Toml
