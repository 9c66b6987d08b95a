/-
SpatialGrammar/Derivation/Diagnostic.lean

What a run noticed without being ended by it.
-/
import SpatialGrammar.Names.Handle
import SpatialGrammar.Symbol.ParseError

namespace SpatialGrammar

/-- An event worth telling, with the number of the iteration in which it happened. -/
inductive Diagnostic where
  /-- A text was faulty. -/
  | parse (iteration : Nat) (error : ParseError)
  /-- The entity of the target has no such method. -/
  | methodNotFound (iteration : Nat) (method target : String)
  /-- A method came before every object of its sentence. -/
  | methodPlacementOrder (iteration : Nat) (method : String)
  /-- The entity made for a symbol violates the space. -/
  | spatialViolation (iteration : Nat) (symbol : String) (entity : EntityId)
  deriving DecidableEq, Repr

namespace Diagnostic

/-- The number of the iteration. -/
def iteration : Diagnostic → Nat
  | parse i _ | methodNotFound i _ _ | methodPlacementOrder i _ | spatialViolation i _ _ => i

/-- The wording of the event. -/
def text : Diagnostic → String
  | parse _ error => "parse: " ++ error.message
  | methodNotFound _ method target => "no method " ++ method ++ " on " ++ target
  | methodPlacementOrder _ method => method ++ " must follow an object"
  | spatialViolation _ symbol entity =>
    symbol ++ " (" ++ EntityId.text entity ++ ") is outside the space"

/-- The wording of the event after the number of its iteration. -/
def message (d : Diagnostic) : String :=
  "[" ++ Decimal.natText d.iteration ++ "] " ++ d.text

end Diagnostic

end SpatialGrammar
