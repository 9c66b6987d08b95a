/-
SpatialGrammar/Random/Counted.lean

A source that counts what is drawn from it.
-/
import SpatialGrammar.Random.Source

namespace SpatialGrammar

/-- A source and the numbers of draws that it has answered. -/
structure Counted (ρ : Type) where
  source : ρ
  /-- How many numbers of the unit interval were drawn. -/
  units : Nat
  /-- How many indices were drawn. -/
  indices : Nat
  deriving Repr

namespace Counted

variable {α ρ : Type}

/-- A source from which nothing has been drawn. -/
def fresh (s : ρ) : Counted ρ := ⟨s, 0, 0⟩

instance [RandomSource ρ α] : RandomSource (Counted ρ) α where
  nextUnit s :=
    let (u, source) := RandomSource.nextUnit s.source
    (u, { s with source, units := s.units + 1 })
  nextIndex bound s :=
    let (i, source) := RandomSource.nextIndex bound s.source
    (i, { s with source, indices := s.indices + 1 })

end Counted

end SpatialGrammar
