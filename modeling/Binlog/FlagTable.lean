import Binlog.Power

/-!
# Flag sets

A word in which each bit is a flag. A table names the known flags in order; bits without a name are
left out when the set is shown.
-/

namespace Binlog

/-- The known flags, each a name and a bit. -/
abbrev FlagTable := List (String × Nat)

namespace FlagTable

/-- Whether a flag is set. -/
def isSet (bits flag : Nat) : Bool := bits &&& flag == flag

/-- The word without the bits that no flag names. -/
def truncate (table : FlagTable) (bits : Nat) : Nat :=
  bits &&& table.foldl (fun known flag => known ||| flag.2) 0

/-- The names of the flags that are set, in the order of the table. -/
def names (table : FlagTable) (bits : Nat) : List String :=
  (table.filter fun flag => isSet bits flag.2).map (·.1)

/-- The names with bars between them. -/
def text (table : FlagTable) (bits : Nat) : String :=
  match table.names bits with
  | [] => "(empty)"
  | names => " | ".intercalate names

/-- The table that gives the names to the bits from the lowest on. -/
def ofNames (names : List String) : FlagTable := names.mapIdx fun i name => (name, 2 ^ i)

end FlagTable

end Binlog
