import Binlog.Bytes.Number

/-!
# Exported values

The form in which an event is handed to other programs: nothing, truth values, numbers, texts,
lists, and objects with named fields. An optional value is the value itself or nothing; a choice
among alternatives is an object with the chosen alternative as its only field.
-/

namespace Binlog

/-- A structured value. -/
inductive Value where
  | null
  | bool (b : Bool)
  | nat (n : Nat)
  | int (n : Int)
  /-- A finite binary64 number, as its bits. -/
  | real (bits : UInt64)
  | text (s : String)
  | list (items : List Value)
  | object (fields : List (String × Value))

namespace Value

/-- The value, or nothing. -/
def ofOption {α : Type} (f : α → Value) : Option α → Value
  | none => null
  | some a => f a

/-- Values in a row. -/
def ofList {α : Type} (f : α → Value) (xs : List α) : Value := list (xs.map f)

/-- A chosen alternative with its value. -/
def choice (name : String) (v : Value) : Value := object [(name, v)]

end Value

end Binlog
