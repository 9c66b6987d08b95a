/-
SpatialGrammar/Geometry/Quat.lean

Rotations as quaternions.

A quaternion of length one turns a vector; a longer or shorter one also stretches
it, which is why products are normalised where they are kept.
-/
import SpatialGrammar.Geometry.Angle
import SpatialGrammar.Geometry.Mat4

namespace SpatialGrammar

/-- A quaternion with the real part last. -/
structure Quat (α : Type) where
  x : α
  y : α
  z : α
  w : α
  deriving BEq, DecidableEq, Repr

namespace Quat

variable {α : Type}

/-- The parts in order. -/
def toList (q : Quat α) : List α := [q.x, q.y, q.z, q.w]

variable [Scalar α]

/-- The rotation that turns nothing. -/
def identity : Quat α := ⟨0, 0, 0, 1⟩

/-- The turn about `axis` by an angle in radians; an axis too short to have a direction turns
nothing. -/
def ofAxisAngle (axis : Vec3 α) (angle : α) : Quat α :=
  let lengthSquared := axis.lengthSquared
  if lengthSquared ≤ Scalar.epsilon * Scalar.epsilon then identity
  else
    let unit := axis.scale (1 / Scalar.sqrt lengthSquared)
    let half := angle * Scalar.ratio 1 2
    let imaginary := unit.scale (Scalar.sin half)
    ⟨imaginary.x, imaginary.y, imaginary.z, Scalar.cos half⟩

/-- The turn about the upward axis by an angle in degrees. -/
def ofYaw (degrees : α) : Quat α := ofAxisAngle .unitY (Angle.toRadians degrees)

/-- The product: `b` turns first and `a` second. -/
def multiply (a b : Quat α) : Quat α :=
  ⟨a.w * b.x + a.x * b.w + a.y * b.z - a.z * b.y,
   a.w * b.y - a.x * b.z + a.y * b.w + a.z * b.x,
   a.w * b.z + a.x * b.y - a.y * b.x + a.z * b.w,
   a.w * b.w - a.x * b.x - a.y * b.y - a.z * b.z⟩

/-- Turns in degrees about the three axes: the third axis first, then the first, then the
upward one. -/
def ofEuler (degrees : Vec3 α) : Quat α :=
  let qx := ofAxisAngle .unitX (Angle.toRadians degrees.x)
  let qy := ofAxisAngle .unitY (Angle.toRadians degrees.y)
  let qz := ofAxisAngle .unitZ (Angle.toRadians degrees.z)
  (qy.multiply qx).multiply qz

/-- The opposite turn, for a quaternion of length one. -/
def conjugate (q : Quat α) : Quat α := ⟨-q.x, -q.y, -q.z, q.w⟩

/-- The quaternion of length one in the same direction; one too short gives the identity. -/
def normalize (q : Quat α) : Quat α :=
  let length := Scalar.sqrt (Scalar.sum (q.toList.map fun c => c * c))
  if length ≤ Scalar.epsilon then identity
  else
    let inverse := 1 / length
    ⟨q.x * inverse, q.y * inverse, q.z * inverse, q.w * inverse⟩

/-- The vector turned by a quaternion of length one. -/
def rotate (q : Quat α) (v : Vec3 α) : Vec3 α :=
  let axis : Vec3 α := ⟨q.x, q.y, q.z⟩
  let t := (axis.cross v).scale ((2 : Nat) : α)
  (v.add (t.scale q.w)).add (axis.cross t)

/-- The angle in degrees by which the first axis is turned about the upward one. -/
def yaw (q : Quat α) : α :=
  let forward := q.rotate .unitX
  Angle.wrap (Angle.toDegrees (Scalar.atan2 (-forward.z) forward.x))

/-- The matrix of the rotation. -/
def toMat4 (q : Quat α) : Mat4 α :=
  let q := q.normalize
  let two : α := ((2 : Nat) : α)
  let xx := q.x * q.x
  let yy := q.y * q.y
  let zz := q.z * q.z
  let xy := q.x * q.y
  let xz := q.x * q.z
  let yz := q.y * q.z
  let wx := q.w * q.x
  let wy := q.w * q.y
  let wz := q.w * q.z
  ⟨⟨1 - two * (yy + zz), two * (xy + wz), two * (xz - wy), 0⟩,
   ⟨two * (xy - wz), 1 - two * (xx + zz), two * (yz + wx), 0⟩,
   ⟨two * (xz + wy), two * (yz - wx), 1 - two * (xx + yy), 0⟩,
   ⟨0, 0, 0, 1⟩⟩

end Quat

end SpatialGrammar
