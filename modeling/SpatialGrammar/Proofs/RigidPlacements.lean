/-
SpatialGrammar/Proofs/RigidPlacements.lean

Placements that turn and shift and stretch nothing.

A placement is rigid (`Transform.IsRigid`) when its quaternion has length one and its
stretch is one on every axis.  Composing and undoing lead from rigid placements to rigid
ones.  A rigid placement is undone without loss in both orders, since the one that undoes it
is rigid and is itself undone by it; so what has been undone is got back
(`Transform.IsRigid.compose_inverse_compose`).

Everything is stated over the real numbers.
-/
import SpatialGrammar.Proofs.PlacementAlgebra

namespace SpatialGrammar.Transform

/-- The placement turns and shifts, and stretches nothing. -/
structure IsRigid (t : Transform ℝ) : Prop where
  rotation : t.rotation.IsUnit
  scale : t.scale = .one

variable {t u : Transform ℝ}

theorem isRigid_identity : (identity : Transform ℝ).IsRigid := ⟨Quat.isUnit_identity, rfl⟩

theorem IsRigid.compose (ht : t.IsRigid) (hu : u.IsRigid) : (t.compose u).IsRigid where
  rotation := by
    rw [rotation_compose ht.rotation hu.rotation]
    exact ht.rotation.multiply hu.rotation
  scale := by
    show t.scale.mul u.scale = .one
    rw [ht.scale, hu.scale, Vec3.mul_one]

theorem negligible_lt_one : negligible < |(1 : ℝ)| := by
  simp only [negligible, Scalar.ratio_real]
  norm_num

/-- A stretch of one is not negligible, so it is undone by dividing. -/
theorem IsRigid.inverse_eq (h : t.IsRigid) : t.inverse =
    ⟨t.rotation.conjugate.rotate (t.position.scale (-1)), t.rotation.conjugate, .one⟩ := by
  rw [inverse_of_same h.scale negligible_lt_one, div_one, ← Vec3.mul_same]
  exact congrArg (Transform.mk · t.rotation.conjugate .one) (Vec3.mul_one _)

theorem IsRigid.inverse (h : t.IsRigid) : t.inverse.IsRigid := by
  rw [h.inverse_eq]
  exact ⟨h.rotation.conjugate, rfl⟩

theorem IsRigid.inverse_inverse (h : t.IsRigid) : t.inverse.inverse = t := by
  rw [h.inverse.inverse_eq, h.inverse_eq]
  obtain ⟨position, rotation, scale⟩ := t
  obtain rfl : scale = .one := h.scale
  have hposition : rotation.rotate ((rotation.conjugate.rotate (position.scale (-1))).scale (-1)) =
      position := by
    rw [← Quat.rotate_scale, h.rotation.rotate_conjugate]
    ext <;> simp
  simp only [Quat.conjugate_conjugate, hposition]

theorem IsRigid.identity_compose (h : t.IsRigid) : identity.compose t = t := by
  obtain ⟨position, rotation, scale⟩ := t
  obtain rfl : scale = .one := h.scale
  show Transform.mk ((Quat.identity.rotate (position.mul .one)).add .zero)
    (Quat.identity.multiply rotation).normalize (Vec3.one.mul .one) = _
  rw [Vec3.mul_one, Vec3.mul_one, Quat.identity_rotate, Vec3.add_zero, Quat.identity_multiply,
    h.rotation.normalize]

/-- **In the frame of a rigid placement stands whatever its inverse has brought there.** -/
theorem IsRigid.compose_inverse_compose (ht : t.IsRigid) (hu : u.IsRigid) :
    t.compose (t.inverse.compose u) = u := by
  have hundone := inverse_compose_compose ht.inverse.rotation ht.inverse.scale negligible_lt_one
    hu.rotation
  rwa [ht.inverse_inverse] at hundone

end SpatialGrammar.Transform
