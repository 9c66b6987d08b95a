/-
SpatialGrammar/Random/Source.lean

Sources of random numbers.

A source gives numbers of the unit interval and indices below a bound, and is left
in another state by each draw.  Two sources side by side, of which one is in use,
are a source again.
-/
import SpatialGrammar.Numeric.Scalar

namespace SpatialGrammar

/-- A source of random numbers whose states are of type `ρ`. -/
class RandomSource (ρ : Type) (α : outParam Type) where
  /-- Draws a number, meant to be at least zero and below one. -/
  nextUnit : ρ → α × ρ
  /-- Draws an index, meant to be below the bound. -/
  nextIndex : Nat → ρ → Nat × ρ

namespace RandomSource

variable {α ρ σ : Type}

/-- Draws a number from `low` up to `high`. -/
def nextBetween [Scalar α] [RandomSource ρ α] (low high : α) (s : ρ) : α × ρ :=
  let (u, s) := nextUnit s
  (low + (high - low) * u, s)

instance [RandomSource ρ α] [RandomSource σ α] : RandomSource (ρ ⊕ σ) α where
  nextUnit
    | .inl s => let (u, s) := nextUnit s; (u, .inl s)
    | .inr s => let (u, s) := nextUnit s; (u, .inr s)
  nextIndex bound
    | .inl s => let (i, s) := nextIndex bound s; (i, .inl s)
    | .inr s => let (i, s) := nextIndex bound s; (i, .inr s)

end RandomSource

end SpatialGrammar
