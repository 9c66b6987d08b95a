/-
SpatialGrammar/Geometry/Transform.lean

Placements in space: stretch along the axes, then turn, then shift.

`compose` chains two placements and `inverse` undoes one.  The composition keeps the
three parts apart, so it is the composition of the maps when the outer stretch is the
same on every axis.
-/
import SpatialGrammar.Geometry.Quat

namespace SpatialGrammar

/-- A stretch, a turn and a shift, applied in this order. -/
structure Transform (α : Type) where
  position : Vec3 α
  rotation : Quat α
  scale : Vec3 α
  deriving BEq, DecidableEq, Repr

namespace Transform

variable {α : Type} [Scalar α]

/-- The placement that moves nothing. -/
def identity : Transform α := ⟨.zero, .identity, .one⟩

/-- The placement that turns and stretches nothing. -/
def ofPosition (position : Vec3 α) : Transform α := ⟨position, .identity, .one⟩

/-- The angle in degrees by which the placement turns about the upward axis. -/
def yaw (t : Transform α) : α := t.rotation.yaw

/-- The matrix of the placement. -/
def toMat4 (t : Transform α) : Mat4 α :=
  ((Mat4.shift t.position).multiply t.rotation.toMat4).multiply (.scaling t.scale)

/-- The image of a point. -/
def transformPoint (t : Transform α) (p : Vec3 α) : Vec3 α :=
  (t.rotation.rotate (p.mul t.scale)).add t.position

/-- The placement of a child within the frame of `t`. -/
def compose (t child : Transform α) : Transform α :=
  ⟨t.transformPoint child.position, (t.rotation.multiply child.rotation).normalize,
   t.scale.mul child.scale⟩

/-- A stretch up to this size cannot be undone by division and is undone by zero instead. -/
def negligible : α := Scalar.ratio 1 0x800000

/-- The placement that undoes `t`. -/
def inverse (t : Transform α) : Transform α :=
  let scale := t.scale.map fun s => if Scalar.abs s ≤ negligible then 0 else 1 / s
  let rotation := t.rotation.conjugate
  ⟨(rotation.rotate (t.position.scale (-1))).mul scale, rotation, scale⟩

end Transform

end SpatialGrammar
