/-
SpatialGrammar/Numeric/Rounding.lean

Rounding a positive quotient of natural numbers to a binary format.

A `BinaryFormat` has a fixed number of significant bits and a least exponent;
its numbers are `m * 2 ^ e` with `m` below `2 ^ precision` and `e` between the
bounds.  `BinaryFormat.round` gives the nearest of them, a tie going to the
even significand, or nothing when the value is too large.
-/

namespace SpatialGrammar

/-- The natural number nearest to `num / den`; a half goes to the even neighbour. -/
def nearestEven (num den : Nat) : Nat :=
  let q := num / den
  let twice := 2 * (num % den)
  if twice < den then q
  else if den < twice then q + 1
  else if q % 2 = 0 then q else q + 1

/-- The size and the reach of a binary floating-point format. -/
structure BinaryFormat where
  /-- The number of significant bits. -/
  precision : Nat
  /-- The exponent of the last place of the smallest numbers. -/
  least : Int
  /-- The exponent of the last place of the largest numbers. -/
  greatest : Int
  deriving DecidableEq, Repr

namespace BinaryFormat

/-- Single precision. -/
def single : BinaryFormat := ⟨24, -149, 104⟩

/-- Double precision. -/
def double : BinaryFormat := ⟨53, -1074, 971⟩

/-- The exponent `k` with `2 ^ k ≤ num / den < 2 ^ (k + 1)`, for positive arguments. -/
def magnitude (num den : Nat) : Int :=
  let guess : Int := (num.log2 : Int) - (den.log2 : Int)
  let fits :=
    if 0 ≤ guess then den * Nat.pow 2 guess.toNat ≤ num else den ≤ num * Nat.pow 2 (-guess).toNat
  if fits then guess else guess - 1

/-- The significand and the exponent of the number nearest to `num / den`. -/
def round (f : BinaryFormat) (num den : Nat) : Option (Nat × Int) :=
  if num = 0 then some (0, f.least)
  else
    let e := max f.least (magnitude num den - ((f.precision : Int) - 1))
    let m :=
      if 0 ≤ e then nearestEven num (den * Nat.pow 2 e.toNat)
      else nearestEven (num * Nat.pow 2 (-e).toNat) den
    let (m, e) := if m = Nat.pow 2 f.precision then (Nat.pow 2 (f.precision - 1), e + 1) else (m, e)
    if f.greatest < e then none else some (m, e)

/-- The number nearest to `num / den * 2 ^ k`. -/
def roundScaled (f : BinaryFormat) (num den : Nat) (k : Int) : Option (Nat × Int) :=
  if 0 ≤ k then f.round (num * Nat.pow 2 k.toNat) den else f.round num (den * Nat.pow 2 (-k).toNat)

/-- The number nearest to the product of two numbers. -/
def multiply (f : BinaryFormat) (a b : Nat × Int) : Option (Nat × Int) :=
  f.roundScaled (a.1 * b.1) 1 (a.2 + b.2)

/-- The number nearest to the quotient of two numbers, the second of which is not zero. -/
def divide (f : BinaryFormat) (a b : Nat × Int) : Option (Nat × Int) :=
  f.roundScaled a.1 b.1 (a.2 - b.2)

end BinaryFormat

end SpatialGrammar
