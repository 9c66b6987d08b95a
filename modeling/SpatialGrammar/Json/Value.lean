/-
SpatialGrammar/Json/Value.lean

JSON values, with as much of their spelling as reading them needs.

A number is kept as it was written, because what it is worth depends on who reads it.
A string that escapes half of a surrogate pair is a string all the same, but no text;
it can be passed over and not read.  The members of an object stay in order, and a
name may come twice.
-/

namespace SpatialGrammar

/-- A JSON value. -/
inductive Json where
  | null
  | bool (b : Bool)
  | number (numeral : String)
  | string (text : Option String)
  | array (items : List Json)
  | object (members : List (Option String × Json))
  deriving Repr

namespace Json

/-- The string of a text. -/
def ofText (s : String) : Json := .string (some s)

/-- The object with members of the given names. -/
def ofFields (fields : List (String × Json)) : Json :=
  .object (fields.map fun (name, value) => (some name, value))

end Json

end SpatialGrammar
