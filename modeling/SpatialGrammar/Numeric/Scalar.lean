/-
SpatialGrammar/Numeric/Scalar.lean

The numbers that weights, draws and geometry are written in.

Everything above this module is stated for an arbitrary `Scalar`, and the
operations are applied in the order in which the formulas are written.  The
program runs on single-precision numbers, where every operation rounds; the
same definitions read over an exact field say what the formulas mean.

`Scalar` carries operations and no laws, because rounded arithmetic has few.
A constant is a quotient of whole numbers, so that it is the nearest number to
what it names in either reading.  `Numeral` adds the text of a number.
-/

namespace SpatialGrammar

/-- A kind of number with arithmetic, order, roots and the functions of angles. -/
class Scalar (α : Type) extends Add α, Sub α, Mul α, Div α, Neg α, Zero α, One α, NatCast α,
    LE α, LT α, Min α, Max α, BEq α where
  /-- The order is decidable. -/
  decidableLE : DecidableLE α
  /-- The strict order is decidable. -/
  decidableLT : DecidableLT α
  /-- The distance from zero. -/
  abs : α → α
  /-- The square root. -/
  sqrt : α → α
  /-- The sine of an angle in radians. -/
  sin : α → α
  /-- The cosine of an angle in radians. -/
  cos : α → α
  /-- The angle, in radians, of the point with the given ordinate and abscissa. -/
  atan2 : α → α → α
  /-- The remainder of a division whose quotient is rounded toward zero. -/
  remainder : α → α → α
  /-- A full turn in radians. -/
  tau : α

namespace Scalar

variable {α : Type} [Scalar α]

instance : DecidableLE α := Scalar.decidableLE
instance : DecidableLT α := Scalar.decidableLT

/-- The number written as a quotient of two whole numbers. -/
def ratio (num den : Nat) : α := (num : α) / (den : α)

/-- Lengths up to a millionth count as zero where a direction is needed. -/
def epsilon : α := ratio 1 1000000

/-- The sum of a list from the left, starting at zero. -/
def sum (xs : List α) : α := xs.foldl (· + ·) 0

end Scalar

/-- Numbers that can be read from a text and written to one. -/
class Numeral (α : Type) where
  /-- The number that a text spells, if it spells one. -/
  read? : List Char → Option α
  /-- The text of a number. -/
  text : α → List Char

end SpatialGrammar
