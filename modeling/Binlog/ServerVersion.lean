import Binlog.Text.Blank
import Binlog.Text.Digits

/-!
# Server versions

A server names its version by a text such as `8.0.23-log`. The part before the first hyphen holds up
to three numbers between points; a missing one is zero, and what follows the third is ignored. A
number may have blanks around it and one plus sign in front.
-/

namespace Binlog

/-- The three numbers of a version, of which the first weighs most. -/
structure ServerVersion where
  major : UInt32
  minor : UInt32
  patch : UInt32
  deriving DecidableEq

namespace ServerVersion

/-- A number below 2^32 of one or more digits. -/
def digits? (cs : List Char) : Option UInt32 :=
  if cs.isEmpty ∨ !cs.all Char.isDigit then none
  else if Digits.value cs < 2 ^ 32 then some (.ofNat (Digits.value cs))
  else none

/-- The number between two points. -/
def segment? (cs : List Char) : Option UInt32 :=
  match Text.trimBlank cs with
  | '+' :: rest => digits? rest
  | cs => digits? cs

/-- The parts that the numbers are read from. -/
def segments (cs : List Char) : List (List Char) :=
  ((cs.takeWhile (· != '-')).splitOn '.').take 3

/-- The version with these numbers, and zero for those that are missing. -/
def ofNumbers (ns : List UInt32) : ServerVersion := ⟨ns.getD 0 0, ns.getD 1 0, ns.getD 2 0⟩

/-- The version that a text names. -/
def ofText? (s : String) : Option ServerVersion :=
  ((segments s.toList).mapM segment?).map ofNumbers

example : ofText? "8.0.23-log" = some ⟨8, 0, 23⟩ := by decide +kernel

/-- The three numbers with points between them. -/
def chars (v : ServerVersion) : List Char :=
  Digits.chars v.major.toNat ++ '.' :: Digits.chars v.minor.toNat ++
    '.' :: Digits.chars v.patch.toNat

/-- The three numbers with points between them. -/
def text (v : ServerVersion) : String := .ofList v.chars

/-- Versions are in the order of their numbers, first number first. -/
def order (v w : ServerVersion) : Ordering :=
  (compare v.major w.major).then <| (compare v.minor w.minor).then (compare v.patch w.patch)

/-- Whether `v` is not older than `w`. -/
def atLeast (v w : ServerVersion) : Bool := (v.order w).isGE

end ServerVersion

end Binlog
