/-!
# TypeQuery.Json

JSON values. Numbers are kept apart by how they are written: an integer that fits 64 bits is a
number to count with, every other number is only known by its text. The fields of an object keep
the order in which they were written.
-/

namespace TypeQuery

/-- A number of a JSON text. -/
inductive JsonNumber where
  /-- Digits alone, in the range of a signed or unsigned 64-bit integer. -/
  | integer (value : Int)
  /-- Any other number, by its text. -/
  | decimal (text : String)
  deriving DecidableEq, Repr, Inhabited

/-- A JSON value. -/
inductive Json where
  | null
  | bool (value : Bool)
  | number (value : JsonNumber)
  | text (value : String)
  | list (items : List Json)
  | object (fields : List (String × Json))
  deriving Repr, Inhabited

namespace Json

/-- The JSON value of a natural number. -/
def nat (n : Nat) : Json :=
  .number (.integer n)

/-- A value that may be absent, as `null` when it is. -/
def orNull {α : Type} (toJson : α → Json) : Option α → Json
  | some a => toJson a
  | none => .null

/-- The last field of that name. -/
def field? (name : String) : Json → Option Json
  | .object fields => (fields.reverse.find? (·.1 == name)).map (·.2)
  | _ => none

/-- Whether a value is `null`. -/
def isNull : Json → Bool
  | .null => true
  | _ => false

end Json

end TypeQuery
