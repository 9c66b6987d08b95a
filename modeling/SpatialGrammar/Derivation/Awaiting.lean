/-
SpatialGrammar/Derivation/Awaiting.lean

The entities that wait to be told of the end of their run.
-/
import SpatialGrammar.Names.Handle

namespace SpatialGrammar

/-- Entities in the order in which they began to wait, each once. -/
structure Awaiting where
  pending : List EntityId
  deriving DecidableEq, Repr

namespace Awaiting

/-- Nobody waits. -/
def empty : Awaiting := ⟨[]⟩

/-- An entity begins to wait, unless it does already. -/
def subscribe (a : Awaiting) (e : EntityId) : Awaiting :=
  if e ∈ a.pending then a else ⟨a.pending ++ [e]⟩

/-- An entity no longer waits. -/
def unsubscribe (a : Awaiting) (e : EntityId) : Awaiting := ⟨a.pending.filter (· ≠ e)⟩

/-- All that wait, in order, and nobody left waiting. -/
def drain (a : Awaiting) : List EntityId × Awaiting := (a.pending, empty)

end Awaiting

end SpatialGrammar
