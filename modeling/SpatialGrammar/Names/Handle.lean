/-
SpatialGrammar/Names/Handle.lean

Handles of symbols and of entities.
-/
import SpatialGrammar.Decimal.Integer

namespace SpatialGrammar

/-- The place of a symbol in the arena of its run.

A handle of 32 bits stops at the greatest one, which all symbols after the first `2 ^ 32` share
with the last of these.  Here the handles go on.  The two agree as long as an arena has no more
than `2 ^ 32` symbols, and what is said of a run is said of one that stays within that. -/
abbrev SymbolId := Nat

/-- The handle of an entity, given out by the world that made it. -/
abbrev EntityId := Nat

/-- An entity as it is named in messages. -/
def EntityId.text (id : EntityId) : String := "#" ++ Decimal.natText id

end SpatialGrammar
