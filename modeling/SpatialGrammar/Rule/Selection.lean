/-
SpatialGrammar/Rule/Selection.lean

Drawing one of several weighted alternatives.

Alternatives whose positions are excluded take no part.  Of the others each has a
weight, a negative one counting as zero.  One number of the unit interval is drawn and
stretched to the total weight; the alternative in whose share it falls is taken.  When
there is no weight to share out, nothing is drawn.
-/
import SpatialGrammar.Random.Source

namespace SpatialGrammar

/-- One way to expand a symbol. -/
structure Alternative (α : Type) where
  /-- The weight, relative to those of the other alternatives. -/
  probability : α
  /-- The text that takes the symbol's place in the next sentence. -/
  template : String
  deriving BEq, DecidableEq, Repr

namespace Alternative

variable {α ρ : Type} [Scalar α]

/-- The weight that counts in a draw. -/
def weight (a : Alternative α) : α := max a.probability 0

/-- The alternatives whose positions are not excluded, with their positions. -/
def live (outputs : List (Alternative α)) (excluded : List Nat) : List (Alternative α × Nat) :=
  outputs.zipIdx.filter fun a => !excluded.contains a.2

/-- The total weight of the alternatives that are not excluded. -/
def total (outputs : List (Alternative α)) (excluded : List Nat) : α :=
  Scalar.sum ((live outputs excluded).map fun a => a.1.weight)

/-- The position of the first alternative at which the running sum of the weights, starting at
`before`, exceeds `roll`. -/
def firstExceeding (roll : α) : α → List (Alternative α × Nat) → Option Nat
  | _, [] => none
  | before, (a, i) :: rest =>
    let after := before + a.weight
    if roll < after then some i else firstExceeding roll after rest

/-- Draws the position of an alternative that is not excluded. -/
def select [RandomSource ρ α] (outputs : List (Alternative α)) (excluded : List Nat) (s : ρ) :
    Option Nat × ρ :=
  let total := total outputs excluded
  if total ≤ 0 then (none, s)
  else
    let (u, s) := RandomSource.nextUnit s
    (firstExceeding (u * total) 0 (live outputs excluded), s)

end Alternative

end SpatialGrammar
