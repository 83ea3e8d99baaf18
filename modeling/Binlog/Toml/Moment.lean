import Binlog.Toml.Scalar

/-!
# TOML: dates and times

Dates and times are recognised by their outline and not evaluated, as no option has one for its
value. What stands between the marks may be any word.

A word begins a date if it has a letter T, or a hyphen behind its first character that is not the
sign of an exponent. An hour may follow a date behind one space. A colon begins the minutes; seconds
follow behind another, and then, each behind its mark, a fraction and an offset.
-/

namespace Binlog.Toml

/-- Whether an exponent with a minus sign stands in a word. -/
def hasNegativeExponent : Chars → Bool
  | c :: '-' :: cs => c == 'e' || c == 'E' || hasNegativeExponent ('-' :: cs)
  | _ :: cs => hasNegativeExponent cs
  | [] => false

/-- Whether a word begins a date. -/
def isDateWord (w : Chars) : Bool :=
  w.contains 'T' || w.contains 't' || ((w.drop 1).contains '-' && !hasNegativeExponent w)

/-- The text behind a mark and a word. -/
def markedWord? (mark : Char) : Chars → Option Chars
  | c :: cs => if c = mark then (word? cs).map Prod.snd else none
  | [] => none

/-- The text behind a mark and a word, if there is the mark. -/
def optionalWord? (mark : Char) (cs : Chars) : Option Chars :=
  if cs.head? = some mark then markedWord? mark cs else some cs

/-- The text behind a time, of which the hour has been taken. -/
def clock? (cs : Chars) : Option Chars := do
  let seconds ← markedWord? ':' cs
  let fraction ← markedWord? ':' seconds
  let offset ← optionalWord? '.' fraction
  let offsetMinutes ← optionalWord? '+' offset
  optionalWord? ':' offsetMinutes

/-- The text behind one space and a word, if they are there. -/
def skipHour (cs : Chars) : Chars :=
  match cs with
  | ' ' :: hour =>
    match word? hour with
    | some (_, rest) => rest
    | none => cs
  | _ => cs

/-- The text behind a date whose first word has been taken, and behind its time if it has one. -/
def date? (cs : Chars) : Option Chars :=
  let rest := skipHour cs
  if rest.head? = some ':' then clock? rest else some rest

/-- Whether a word may be one of a number, a date or a time. -/
def beginsScalar (w : Chars) : Bool :=
  w == ['i', 'n', 'f'] || w == ['n', 'a', 'n'] || w.head?.any fun c => c == '-' || c.isDigit

/-- The text behind a number, a date or a time. -/
def scalar? (cs : Chars) : Option Chars :=
  match word? cs with
  | none => number? cs
  | some (w, rest) =>
    if !beginsScalar w then none
    else if isDateWord w then date? rest
    else if rest.head? = some ':' then clock? rest
    else number? cs

example : scalar? "1979-05-27 07:32:00.5-08:00\n".toList = some ['\n'] := by decide +kernel

example : scalar? "1e-5".toList = some [] := by decide +kernel

end Binlog.Toml
