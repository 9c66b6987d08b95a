/-
SpatialGrammar/Symbol/Kind.lean

The kinds of symbols, told by the first word inside the brackets.
-/
import SpatialGrammar.Text.Blank

namespace SpatialGrammar

/-- What a symbol stands for. -/
inductive SymbolKind where
  /-- Expanded by its rule, and nothing else. -/
  | rule
  /-- Expanded by its rule, and turned into an entity. -/
  | object
  /-- A method of the entity of the object before it. -/
  | method
  /-- A symbol whose first word names no kind. -/
  | invalid
  deriving DecidableEq, Repr

namespace SymbolKind

/-- The kind that a word names, in long or short form and in any case. -/
def ofWord (word : List Char) : SymbolKind :=
  let w := Text.lower word
  if w = "rule".toList ∨ w = "r".toList then .rule
  else if w = "object".toList ∨ w = "obj".toList ∨ w = "o".toList then .object
  else if w = "method".toList ∨ w = "m".toList then .method
  else .invalid

/-- Whether symbols of the kind are expanded. -/
def expands : SymbolKind → Bool
  | .rule | .object => true
  | .method | .invalid => false

end SymbolKind

end SpatialGrammar
