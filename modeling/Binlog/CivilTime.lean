import Binlog.Text.Digits

/-!
# Civil time

A moment is given as seconds since the start of 1970, leap seconds apart, and shown as a date and a
time of day.

**Dates.** Years are counted from 1 March, so that a leap day is the last day of its year. Since
the months from March on have 31, 30, 31, 30, 31 days over and over, the day of the year fixes the
month by one division. Days repeat in cycles of 400 years, of 146097 days each.
-/

namespace Binlog

/-- A date and a time of day. -/
structure CivilTime where
  year : Nat
  month : Nat
  day : Nat
  hour : Nat
  minute : Nat
  second : Nat
  deriving DecidableEq

namespace CivilTime

/-- The days from 1 March of the year 0 to 1 January 1970. -/
def daysBefore1970 : Nat := 719468

/-- The date so many days after 1 March of the year 0, as year, month and day. -/
def dateOfDay (n : Nat) : Nat × Nat × Nat :=
  let cycle := n / 146097
  let dayOfCycle := n % 146097
  let yearOfCycle :=
    (dayOfCycle - dayOfCycle / 1460 + dayOfCycle / 36524 - dayOfCycle / 146096) / 365
  let dayOfYear := dayOfCycle - (365 * yearOfCycle + yearOfCycle / 4 - yearOfCycle / 100)
  let monthFromMarch := (5 * dayOfYear + 2) / 153
  let day := dayOfYear - (153 * monthFromMarch + 2) / 5 + 1
  let year := 400 * cycle + yearOfCycle
  if monthFromMarch < 10 then (year, monthFromMarch + 3, day)
  else (year + 1, monthFromMarch - 9, day)

/-- The moment `n` seconds after the start of 1970. -/
def ofSeconds (n : Nat) : CivilTime :=
  let (year, month, day) := dateOfDay (n / 86400 + daysBefore1970)
  { year, month, day, hour := n % 86400 / 3600, minute := n % 3600 / 60, second := n % 60 }

/-- Year, month and day, then hours, minutes and seconds, each filled up with zeros. -/
def text (t : CivilTime) : String :=
  .ofList <| Digits.padded 4 t.year ++ '-' :: Digits.padded 2 t.month ++ '-' ::
    Digits.padded 2 t.day ++ 'T' :: Digits.padded 2 t.hour ++ ':' :: Digits.padded 2 t.minute ++
    ':' :: Digits.padded 2 t.second

example : ofSeconds 951782399 = ⟨2000, 2, 28, 23, 59, 59⟩ := by decide
example : ofSeconds 951868799 = ⟨2000, 2, 29, 23, 59, 59⟩ := by decide
example : ofSeconds 4294967295 = ⟨2106, 2, 7, 6, 28, 15⟩ := by decide

end CivilTime

end Binlog
