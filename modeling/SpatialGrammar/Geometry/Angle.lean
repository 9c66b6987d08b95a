/-
SpatialGrammar/Geometry/Angle.lean

Angles in degrees and in radians.
-/
import SpatialGrammar.Numeric.Scalar

namespace SpatialGrammar.Angle

variable {α : Type} [Scalar α]

/-- The degrees in a full turn. -/
def fullTurn : α := ((360 : Nat) : α)

/-- The radians of an angle in degrees. -/
def toRadians (degrees : α) : α := degrees * (Scalar.tau / fullTurn)

/-- The degrees of an angle in radians. -/
def toDegrees (radians : α) : α := radians * (fullTurn / Scalar.tau)

/-- The angle that differs by whole turns and is not negative. -/
def wrap (degrees : α) : α :=
  let rest := Scalar.remainder degrees fullTurn
  if rest < 0 then rest + fullTurn else rest

end SpatialGrammar.Angle
