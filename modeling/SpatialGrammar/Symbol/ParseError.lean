/-
SpatialGrammar/Symbol/ParseError.lean

What can be wrong with the text of a sentence.

The first three are structural: reading stops at them.  The other two leave the
symbol in the sentence.  Offsets count bytes of UTF-8.
-/
import SpatialGrammar.Decimal.Integer
import SpatialGrammar.Text.Quoted

namespace SpatialGrammar

/-- A fault in the text of a sentence. -/
inductive ParseError where
  /-- A symbol is opened inside another one. -/
  | unexpectedOpen (offset : Nat)
  /-- A character that is not blank stands outside every symbol. -/
  | missingOpen (offset : Nat) (found : Char)
  /-- The text ends inside the symbol opened at the offset. -/
  | unclosed (offset : Nat)
  /-- The first word of a symbol names no kind. -/
  | unknownKind (word raw : String)
  /-- A placeholder for a random number does not hold two numbers, or is not closed. -/
  | malformedRandom (fragment : String)
  deriving DecidableEq, Repr

namespace ParseError

/-- Whether reading stops at the fault. -/
def isStructural : ParseError → Bool
  | unexpectedOpen _ | missingOpen _ _ | unclosed _ => true
  | unknownKind _ _ | malformedRandom _ => false

/-- The wording of a fault. -/
def message : ParseError → String
  | unexpectedOpen offset =>
    "symbol opened at byte " ++ Decimal.natText offset ++ " before the previous one was closed"
  | missingOpen offset found =>
    "expected '<' at byte " ++ Decimal.natText offset ++ ", found " ++ Text.quotedChar found
  | unclosed offset => "symbol opened at byte " ++ Decimal.natText offset ++ " is never closed"
  | unknownKind word raw => "unknown symbol kind " ++ Text.quoted word ++ " in " ++ raw
  | malformedRandom fragment => "malformed random placeholder " ++ Text.quoted fragment

end ParseError

end SpatialGrammar
