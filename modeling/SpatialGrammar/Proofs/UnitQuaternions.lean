/-
SpatialGrammar/Proofs/UnitQuaternions.lean

Quaternions of length one.

A rotation is written in three ways: as a product of quaternions, as a formula with vector
products, and as a matrix.  For quaternions of length one (`Quat.IsUnit`) the second is
conjugation by the first (`Quat.IsUnit.multiply_ofVector`), so that turning by a product is
turning twice, and it is the map of the third (`Quat.IsUnit.transformPoint_toMat4`).

A product of quaternions of length one has length one, so the normalisation that is made
wherever turns are composed does nothing to it.  The conjugate is the inverse.

Everything is stated over the real numbers.
-/
import SpatialGrammar.Proofs.ExactNumbers

namespace SpatialGrammar

/-! ### Quaternions of length one -/

namespace Quat

@[ext] theorem ext_real {a b : Quat ℝ} (hx : a.x = b.x) (hy : a.y = b.y) (hz : a.z = b.z)
    (hw : a.w = b.w) : a = b := by
  cases a
  cases b
  simp_all

/-- The quaternion has length one. -/
def IsUnit (q : Quat ℝ) : Prop := q.x * q.x + q.y * q.y + q.z * q.z + q.w * q.w = 1

variable {a b q : Quat ℝ}

theorem isUnit_identity : (identity : Quat ℝ).IsUnit := by
  simp [IsUnit, identity]

theorem isUnit_ofYaw (degrees : ℝ) : (ofYaw degrees : Quat ℝ).IsUnit := by
  have hunit := Real.sin_sq_add_cos_sq (Angle.toRadians degrees / 2)
  rw [ofYaw_eq]
  show 0 * 0 + _ * _ + 0 * 0 + _ * _ = (1 : ℝ)
  linear_combination hunit

theorem IsUnit.conjugate (h : q.IsUnit) : q.conjugate.IsUnit := by
  have hsigns : -q.x * -q.x + -q.y * -q.y + -q.z * -q.z + q.w * q.w =
      q.x * q.x + q.y * q.y + q.z * q.z + q.w * q.w := by ring
  exact hsigns.trans h

/-- The length of a product is the product of the lengths. -/
theorem IsUnit.multiply (ha : a.IsUnit) (hb : b.IsUnit) : (a.multiply b).IsUnit := by
  unfold IsUnit at *
  simp only [Quat.multiply]
  linear_combination (b.x * b.x + b.y * b.y + b.z * b.z + b.w * b.w) * ha + hb

theorem IsUnit.normalize (h : q.IsUnit) : q.normalize = q := normalize_of_unit h

theorem multiply_assoc (a b q : Quat ℝ) :
    (a.multiply b).multiply q = a.multiply (b.multiply q) := by
  ext <;> simp only [multiply] <;> ring

/-- The conjugate is the inverse. -/
theorem IsUnit.multiply_conjugate (h : q.IsUnit) : q.multiply q.conjugate = identity := by
  unfold IsUnit at h
  ext <;> simp only [Quat.multiply, Quat.conjugate, identity]
  · ring
  · ring
  · ring
  · linear_combination h

/-- **What the conjugate has turned is turned back.** -/
theorem IsUnit.rotate_conjugate (h : q.IsUnit) (v : Vec3 ℝ) :
    q.rotate (q.conjugate.rotate v) = v := by
  let axis : Vec3 ℝ := ⟨q.x, q.y, q.z⟩
  -- the two turns miss the vector by as much as the length misses one
  have hmissed : q.rotate (q.conjugate.rotate v) = v.add ((axis.cross (axis.cross v)).scale
      (4 * (1 - (q.x * q.x + q.y * q.y + q.z * q.z + q.w * q.w)))) := by
    ext <;> simp [axis, rotate, Quat.conjugate, Vec3.cross] <;> ring
  rw [hmissed, show q.x * q.x + q.y * q.y + q.z * q.z + q.w * q.w = 1 from h]
  ext <;> simp

/-! ### Turning by a product -/

/-- A vector as a quaternion without a real part. -/
def ofVector (v : Vec3 ℝ) : Quat ℝ := ⟨v.x, v.y, v.z, 0⟩

theorem ofVector_injective : Function.Injective ofVector := by
  intro u v h
  ext
  · exact congrArg Quat.x h
  · exact congrArg Quat.y h
  · exact congrArg Quat.z h

@[simp] theorem conjugate_conjugate (q : Quat ℝ) : q.conjugate.conjugate = q := by
  simp [conjugate]

theorem conjugate_multiply (a b : Quat ℝ) :
    (a.multiply b).conjugate = b.conjugate.multiply a.conjugate := by
  ext <;> simp only [multiply, conjugate] <;> ring

/-- **Turning is conjugation**, for a quaternion of length one. -/
theorem IsUnit.multiply_ofVector (h : q.IsUnit) (v : Vec3 ℝ) :
    (q.multiply (ofVector v)).multiply q.conjugate = ofVector (q.rotate v) := by
  unfold IsUnit at h
  ext <;> simp only [Quat.multiply, Quat.conjugate, ofVector, rotate, Vec3.cross, Vec3.add_x,
    Vec3.add_y, Vec3.add_z, Vec3.scale_x, Vec3.scale_y, Vec3.scale_z] <;> push_cast
  · linear_combination v.x * h
  · linear_combination v.y * h
  · linear_combination v.z * h
  · ring

/-- Turning by a product is turning by the second factor and then by the first one. -/
theorem IsUnit.rotate_multiply (ha : a.IsUnit) (hb : b.IsUnit) (v : Vec3 ℝ) :
    (a.multiply b).rotate v = a.rotate (b.rotate v) := by
  apply ofVector_injective
  calc ofVector ((a.multiply b).rotate v)
      = ((a.multiply b).multiply (ofVector v)).multiply (b.conjugate.multiply a.conjugate) := by
        rw [← (ha.multiply hb).multiply_ofVector, conjugate_multiply]
    _ = (a.multiply ((b.multiply (ofVector v)).multiply b.conjugate)).multiply a.conjugate := by
        simp only [multiply_assoc]
    _ = ofVector (a.rotate (b.rotate v)) := by
        rw [hb.multiply_ofVector, ha.multiply_ofVector]

/-- What has been turned is turned back by the conjugate. -/
theorem IsUnit.conjugate_rotate (h : q.IsUnit) (v : Vec3 ℝ) :
    q.conjugate.rotate (q.rotate v) = v := by
  simpa using h.conjugate.rotate_conjugate v

theorem IsUnit.conjugate_multiply_multiply (h : q.IsUnit) (b : Quat ℝ) :
    q.conjugate.multiply (q.multiply b) = b := by
  have hone : q.conjugate.multiply q = identity := by
    simpa using h.conjugate.multiply_conjugate
  rw [← multiply_assoc, hone, identity_multiply]

/-- **The matrix of a rotation maps a vector to what it is turned to.** -/
theorem IsUnit.transformPoint_toMat4 (h : q.IsUnit) (v : Vec3 ℝ) :
    q.toMat4.transformPoint v = q.rotate v := by
  unfold toMat4
  rw [h.normalize]
  ext <;> simp only [Mat4.transformPoint, Mat4.transformDirection, rotate, Vec3.cross, Vec3.add_x,
    Vec3.add_y, Vec3.add_z, Vec3.scale_x, Vec3.scale_y, Vec3.scale_z] <;> ring

end Quat

end SpatialGrammar
