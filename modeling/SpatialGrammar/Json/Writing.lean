/-
SpatialGrammar/Json/Writing.lean

Writing JSON texts.

A value is laid out with one item or member a line, two spaces further in than the
value that holds it; an empty array or object has no lines.  Strings escape the quote,
the backslash and control characters and nothing else.
-/
import SpatialGrammar.Json.Value

namespace SpatialGrammar.Json

/-- The written form of one character of a string. -/
def escape (c : Char) : List Char :=
  if c = '"' ∨ c = '\\' then ['\\', c]
  else if c = '\x08' then ['\\', 'b']
  else if c = '\x0c' then ['\\', 'f']
  else if c = '\n' then ['\\', 'n']
  else if c = '\r' then ['\\', 'r']
  else if c = '\t' then ['\\', 't']
  else if c.toNat < 0x20 then
    ['\\', 'u', '0', '0', Nat.digitChar (c.toNat / 16), Nat.digitChar (c.toNat % 16)]
  else [c]

/-- The written form of a string. -/
def stringText (s : String) : List Char := '"' :: s.toList.flatMap escape ++ ['"']

/-- A line break and the blanks that begin the next line. -/
def newline (depth : Nat) : List Char := '\n' :: List.replicate (2 * depth) ' '

mutual

/-- The text of a value that stands at the given depth. -/
def prettyAt (depth : Nat) : Json → List Char
  | .null => "null".toList
  | .bool b => (if b then "true" else "false").toList
  | .number numeral => numeral.toList
  | .string text => stringText (text.getD "")
  | .array [] => ['[', ']']
  | .array (v :: vs) =>
    '[' :: newline (depth + 1) ++ prettyAt (depth + 1) v ++ prettyItems (depth + 1) vs ++
      newline depth ++ [']']
  | .object [] => ['\x7b', '\x7d']
  | .object ((name, v) :: ms) =>
    '\x7b' :: newline (depth + 1) ++ stringText (name.getD "") ++ ':' :: ' ' ::
      prettyAt (depth + 1) v ++ prettyMembers (depth + 1) ms ++ newline depth ++ ['\x7d']

/-- The texts of the items after the first one. -/
def prettyItems (depth : Nat) : List Json → List Char
  | [] => []
  | v :: vs => ',' :: newline depth ++ prettyAt depth v ++ prettyItems depth vs

/-- The texts of the members after the first one. -/
def prettyMembers (depth : Nat) : List (Option String × Json) → List Char
  | [] => []
  | (name, v) :: ms =>
    ',' :: newline depth ++ stringText (name.getD "") ++ ':' :: ' ' :: prettyAt depth v ++
      prettyMembers depth ms

end

/-- The text of a value. -/
def pretty (v : Json) : String := String.ofList (v.prettyAt 0)

end SpatialGrammar.Json
