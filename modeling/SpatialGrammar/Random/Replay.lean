/-
SpatialGrammar/Random/Replay.lean

A source that gives the numbers of a list round and round.

An index is the whole part of the next number times the bound, kept below the bound.
-/
import SpatialGrammar.Numeric.Binary32
import SpatialGrammar.Random.Source

namespace SpatialGrammar

/-- A list of numbers and the place of the one to give next. -/
structure Replay where
  numbers : Array Float32
  place : Nat

namespace Replay

/-- Gives the next number; an empty list gives zeros. -/
def next (r : Replay) : Float32 × Replay :=
  (r.numbers.getD r.place 0, { r with place := (r.place + 1) % r.numbers.size })

instance : RandomSource Replay Float32 where
  nextUnit := next
  nextIndex bound r :=
    let (x, r) := r.next
    (Binary32.scaledIndex x bound, r)

end Replay

end SpatialGrammar
