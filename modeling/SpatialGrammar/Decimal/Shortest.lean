/-
SpatialGrammar/Decimal/Shortest.lean

The shortest decimal that rounds back to a binary floating-point number.

A number `m * 2 ^ e` stands for the interval of reals nearer to it than to its
neighbours; the ends belong to it exactly when `m` is even.  `shortest` walks the
decimal grids `10 ^ k` from coarse to fine and stops at the first one with a point
in the interval.  Only the two grid points around the number need a test: if any
grid point lies in the interval, one of these does.  Of two hits the nearer one is
taken, and a tie is left to the caller.
-/
import SpatialGrammar.Numeric.Rounding

namespace SpatialGrammar.Decimal

/-- The reals that round to a number: `low / den` to `high / den`, around `mid / den`. -/
structure RoundingInterval where
  low : Nat
  mid : Nat
  high : Nat
  den : Nat
  /-- Whether the ends belong to the interval. -/
  closed : Bool
  deriving DecidableEq, Repr

namespace RoundingInterval

/-- The interval of `m * 2 ^ e`.  Below a power of two the neighbours lie twice as dense, unless
the exponent is the least of the format. -/
def ofParts (f : BinaryFormat) (m : Nat) (e : Int) : RoundingInterval :=
  let below := if m = Nat.pow 2 (f.precision - 1) ∧ f.least < e then 1 else 2
  let scale : Int := e - 2
  let (up, den) := if 0 ≤ scale then (Nat.pow 2 scale.toNat, 1) else (1, Nat.pow 2 (-scale).toNat)
  ⟨(4 * m - below) * up, 4 * m * up, (4 * m + 2) * up, den, m % 2 = 0⟩

/-- Whether `num / den` lies in the interval, `den` being the interval's own. -/
def holds (i : RoundingInterval) (num : Nat) : Bool :=
  if i.closed then i.low ≤ num ∧ num ≤ i.high else i.low < num ∧ num < i.high

/-- The same interval measured in units of `10 ^ k`. -/
def inUnitsOf (i : RoundingInterval) (k : Int) : RoundingInterval :=
  if 0 ≤ k then { i with den := i.den * Nat.pow 10 k.toNat }
  else
    let up := Nat.pow 10 (-k).toNat
    { i with low := i.low * up, mid := i.mid * up, high := i.high * up }

/-- The whole number in the interval that is nearest to its middle, if there is one next to it. -/
def nearestWhole? (evenTies : Bool) (i : RoundingInterval) : Option Nat :=
  let d := i.mid / i.den
  let downHit := i.holds (d * i.den)
  let upHit := i.holds ((d + 1) * i.den)
  if downHit && upHit then
    let twice := 2 * (i.mid % i.den)
    if twice < i.den then some d
    else if i.den < twice then some (d + 1)
    else if evenTies && d % 2 = 0 then some d else some (d + 1)
  else if downHit then some d
  else if upHit then some (d + 1)
  else none

end RoundingInterval

/-- The first hit on the grids `10 ^ k`, `10 ^ (k - 1)`, … as digits and a power of ten. -/
def firstHit (evenTies : Bool) (i : RoundingInterval) : Nat → Int → Nat × Int
  | 0, k => (0, k)
  | grids + 1, k =>
    match (i.inUnitsOf k).nearestWhole? evenTies with
    | some d => (d, k)
    | none => firstHit evenTies i grids (k - 1)

/-- The digits and the power of ten of the shortest decimal that rounds to the positive
single-precision number `m * 2 ^ e`.  On the last grid every such number is a grid point. -/
def shortest (evenTies : Bool) (m : Nat) (e : Int) : Nat × Int :=
  firstHit evenTies (.ofParts .single m e) 189 39

end SpatialGrammar.Decimal
