/-
SpatialGrammar/Proofs/PlacementAlgebra.lean

Composing and undoing placements, and their matrices.

A placement stretches, turns and shifts.  A stretch that is the same on every axis may be made
before a turn or after it, which is why composing placements composes the maps if the outer
stretch is such a one (`Transform.transformPoint_compose`), and why what has been placed is got
back (`Transform.inverse_compose_compose`).  The matrix of a placement is the same map, and an
affine matrix is determined by its map (`Mat4.IsAffine.eq_of_transformPoint`), so the law of
composition holds of the matrices too.

Everything is stated over the real numbers.
-/
import SpatialGrammar.Proofs.UnitQuaternions

namespace SpatialGrammar

/-! ### Affine matrices -/

namespace Mat4

/-- The last row of the matrix is that of the identity. -/
structure IsAffine (m : Mat4 ℝ) : Prop where
  c0 : m.c0.w = 0
  c1 : m.c1.w = 0
  c2 : m.c2.w = 0
  c3 : m.c3.w = 1

theorem isAffine_shift (t : Vec3 ℝ) : (shift t).IsAffine := ⟨rfl, rfl, rfl, rfl⟩

theorem isAffine_scaling (s : Vec3 ℝ) : (scaling s).IsAffine := ⟨rfl, rfl, rfl, rfl⟩

theorem isAffine_toMat4 (q : Quat ℝ) : q.toMat4.IsAffine := ⟨rfl, rfl, rfl, rfl⟩

theorem transformPoint_shift (t p : Vec3 ℝ) : (shift t).transformPoint p = p.add t := by
  ext <;> simp [shift, transformPoint, transformDirection]

theorem transformPoint_scaling (s p : Vec3 ℝ) : (scaling s).transformPoint p = p.mul s := by
  ext <;> simp [scaling, transformPoint, transformDirection, Vec3.mul, Vec3.zipWith, mul_comm]

variable {m n : Mat4 ℝ}

theorem IsAffine.multiply (hm : m.IsAffine) (hn : n.IsAffine) : (m.multiply n).IsAffine := by
  constructor <;> simp [Mat4.multiply, apply, hm.c0, hm.c1, hm.c2, hm.c3, hn.c0, hn.c1, hn.c2,
    hn.c3]

/-- A product of matrices is one map after the other. -/
theorem transformPoint_multiply (m : Mat4 ℝ) (hn : n.IsAffine) (p : Vec3 ℝ) :
    (m.multiply n).transformPoint p = m.transformPoint (n.transformPoint p) := by
  ext <;> simp only [Mat4.multiply, apply, transformPoint, transformDirection, hn.c0, hn.c1, hn.c2,
    hn.c3, Vec3.add_x, Vec3.add_y, Vec3.add_z] <;> ring

/-- The matrix whose columns are told by where a map takes the origin and the axes. -/
noncomputable def ofMap (f : Vec3 ℝ → Vec3 ℝ) : Mat4 ℝ :=
  let column (v : Vec3 ℝ) (w : ℝ) : Vec4 ℝ := ⟨v.x, v.y, v.z, w⟩
  ⟨column ((f .unitX).sub (f .zero)) 0, column ((f .unitY).sub (f .zero)) 0,
   column ((f .unitZ).sub (f .zero)) 0, column (f .zero) 1⟩

theorem IsAffine.ofMap_eq (hm : m.IsAffine) : ofMap m.transformPoint = m := by
  obtain ⟨⟨_, _, _, _⟩, ⟨_, _, _, _⟩, ⟨_, _, _, _⟩, ⟨_, _, _, _⟩⟩ := m
  obtain ⟨rfl, rfl, rfl, rfl⟩ := hm
  simp [ofMap, transformPoint, transformDirection, Vec3.zero, Vec3.unitX, Vec3.unitY, Vec3.unitZ]

/-- An affine matrix is determined by its map. -/
theorem IsAffine.eq_of_transformPoint (hm : m.IsAffine) (hn : n.IsAffine)
    (h : ∀ p, m.transformPoint p = n.transformPoint p) : m = n := by
  rw [← hm.ofMap_eq, ← hn.ofMap_eq, funext h]

end Mat4

/-! ### Composing placements -/

namespace Vec3

theorem mul_mul (a b c : Vec3 ℝ) : a.mul (b.mul c) = (a.mul c).mul b := by
  ext <;> simp [mul, zipWith] <;> ring

/-- A stretch that is the same on every axis is a multiple. -/
theorem mul_same (a : Vec3 ℝ) (s : ℝ) : a.mul ⟨s, s, s⟩ = a.scale s := rfl

end Vec3

namespace Transform

variable {a b t : Transform ℝ} {s : ℝ}

theorem isAffine_toMat4 (t : Transform ℝ) : t.toMat4.IsAffine :=
  ((Mat4.isAffine_shift _).multiply (Mat4.isAffine_toMat4 _)).multiply (Mat4.isAffine_scaling _)

/-- **The matrix of a placement maps every point as the placement does**, whatever the stretch. -/
theorem transformPoint_toMat4 (h : t.rotation.IsUnit) (p : Vec3 ℝ) :
    t.toMat4.transformPoint p = t.transformPoint p := by
  unfold toMat4
  rw [Mat4.transformPoint_multiply _ (Mat4.isAffine_scaling _),
    Mat4.transformPoint_multiply _ (Mat4.isAffine_toMat4 _), Mat4.transformPoint_scaling,
    h.transformPoint_toMat4, Mat4.transformPoint_shift]
  rfl

/-- A stretch that is the same on every axis may be made after the turn. -/
theorem transformPoint_of_same (hs : a.scale = ⟨s, s, s⟩) (p : Vec3 ℝ) :
    a.transformPoint p = ((a.rotation.rotate p).scale s).add a.position := by
  unfold transformPoint
  rw [hs, Vec3.mul_same, Quat.rotate_scale]

/-- The rotation of a composition needs no normalisation. -/
theorem rotation_compose (ha : a.rotation.IsUnit) (hb : b.rotation.IsUnit) :
    (a.compose b).rotation = a.rotation.multiply b.rotation :=
  (ha.multiply hb).normalize

/-- **A composition maps every point as the one placement after the other**, if the outer stretch is
the same on every axis. -/
theorem transformPoint_compose (ha : a.rotation.IsUnit) (hs : a.scale = ⟨s, s, s⟩)
    (hb : b.rotation.IsUnit) (p : Vec3 ℝ) :
    (a.compose b).transformPoint p = a.transformPoint (b.transformPoint p) := by
  calc (a.compose b).transformPoint p
      = ((a.rotation.multiply b.rotation).rotate (p.mul (a.scale.mul b.scale))).add
          (a.transformPoint b.position) := by
        rw [← rotation_compose ha hb]
        rfl
    _ = ((a.rotation.rotate (b.rotation.rotate (p.mul b.scale))).scale s).add
          (((a.rotation.rotate b.position).scale s).add a.position) := by
        rw [ha.rotate_multiply hb, Vec3.mul_mul, hs, Vec3.mul_same, Quat.rotate_scale,
          Quat.rotate_scale, transformPoint_of_same hs]
    _ = ((a.rotation.rotate ((b.rotation.rotate (p.mul b.scale)).add b.position)).scale s).add
          a.position := by
        rw [Quat.rotate_add]
        ext <;> simp <;> ring
    _ = a.transformPoint (b.transformPoint p) := by
        rw [transformPoint_of_same hs]
        rfl

/-- So the matrices are multiplied. -/
theorem toMat4_compose (ha : a.rotation.IsUnit) (hs : a.scale = ⟨s, s, s⟩)
    (hb : b.rotation.IsUnit) : (a.compose b).toMat4 = a.toMat4.multiply b.toMat4 := by
  have hunit : (a.compose b).rotation.IsUnit := by
    rw [rotation_compose ha hb]
    exact ha.multiply hb
  apply (isAffine_toMat4 _).eq_of_transformPoint ((isAffine_toMat4 a).multiply (isAffine_toMat4 b))
  intro p
  rw [transformPoint_toMat4 hunit, transformPoint_compose ha hs hb,
    Mat4.transformPoint_multiply _ (isAffine_toMat4 b), transformPoint_toMat4 hb,
    transformPoint_toMat4 ha]

/-! ### Undoing placements -/

theorem ne_zero_of_not_negligible (hlarge : negligible < |s|) : s ≠ 0 := by
  rintro rfl
  simp only [negligible, Scalar.ratio_real, abs_zero] at hlarge
  norm_num at hlarge

/-- A stretch that is not negligible is undone by dividing. -/
theorem inverse_of_same (hs : a.scale = ⟨s, s, s⟩) (hlarge : negligible < |s|) : a.inverse =
    ⟨(a.rotation.conjugate.rotate (a.position.scale (-1))).scale (1 / s), a.rotation.conjugate,
      ⟨1 / s, 1 / s, 1 / s⟩⟩ := by
  have hscale : a.scale.map (fun s => if Scalar.abs s ≤ negligible then 0 else 1 / s) =
      ⟨1 / s, 1 / s, 1 / s⟩ := by
    rw [hs]
    simp only [Vec3.map, Scalar.abs_real, if_neg (not_le.mpr hlarge)]
  unfold inverse
  simp only [hscale, Vec3.mul_same]

/-- **A point that has been placed is got back.** -/
theorem inverse_transformPoint (ha : a.rotation.IsUnit) (hs : a.scale = ⟨s, s, s⟩)
    (hlarge : negligible < |s|) (p : Vec3 ℝ) :
    a.inverse.transformPoint (a.transformPoint p) = p := by
  have hne := ne_zero_of_not_negligible hlarge
  rw [inverse_of_same hs hlarge, transformPoint_of_same rfl, transformPoint_of_same hs,
    Quat.rotate_add, Quat.rotate_scale, Quat.rotate_scale, ha.conjugate_rotate]
  ext <;> simp <;> field_simp <;> ring

/-- **What has been placed within a placement is got back.** -/
theorem inverse_compose_compose (ha : a.rotation.IsUnit) (hs : a.scale = ⟨s, s, s⟩)
    (hlarge : negligible < |s|) (hb : b.rotation.IsUnit) :
    a.inverse.compose (a.compose b) = b := by
  have hne := ne_zero_of_not_negligible hlarge
  have hinverse := inverse_of_same hs hlarge
  have hposition : (a.inverse.compose (a.compose b)).position = b.position :=
    inverse_transformPoint ha hs hlarge b.position
  have hrotation : (a.inverse.compose (a.compose b)).rotation = b.rotation := by
    show (a.inverse.rotation.multiply (a.compose b).rotation).normalize = b.rotation
    rw [hinverse, rotation_compose ha hb, ha.conjugate_multiply_multiply, hb.normalize]
  have hscale : (a.inverse.compose (a.compose b)).scale = b.scale := by
    show a.inverse.scale.mul (a.scale.mul b.scale) = b.scale
    rw [hinverse, hs]
    ext <;> simp [Vec3.mul, Vec3.zipWith] <;> field_simp
  obtain ⟨position, rotation, scale⟩ := b
  exact congr (congr (congrArg mk hposition) hrotation) hscale

/-! ### The laws together -/

/-- **Placements compose, are undone and are written as matrices without loss.**  A composition maps
every point as the one placement after the other, its matrix is the product of the matrices, and its
outer placement can be undone unless the stretch is negligible, provided that this
stretch is the same on every axis; and whatever the stretch, the matrix of a placement
maps every point as it does. -/
theorem placements_compose :
    (∀ (a b : Transform ℝ) (s : ℝ), a.rotation.IsUnit → a.scale = ⟨s, s, s⟩ → b.rotation.IsUnit →
      (∀ p, (a.compose b).transformPoint p = a.transformPoint (b.transformPoint p)) ∧
      (negligible < |s| → a.inverse.compose (a.compose b) = b) ∧
      (a.compose b).toMat4 = a.toMat4.multiply b.toMat4) ∧
    ∀ t : Transform ℝ, t.rotation.IsUnit → ∀ p, t.toMat4.transformPoint p = t.transformPoint p := by
  refine ⟨fun a b s ha hs hb => ⟨?_, ?_, ?_⟩, fun t ht p => transformPoint_toMat4 ht p⟩
  · exact fun p => transformPoint_compose ha hs hb p
  · exact fun hlarge => inverse_compose_compose ha hs hlarge hb
  · exact toMat4_compose ha hs hb

/-- A placement that doubles, turns by a quarter and shifts, and within it one that stretches
the three axes differently. -/
theorem placements_compose_doubled :
    let a : Transform ℝ := ⟨⟨1, 2, 3⟩, .ofYaw 90, ⟨2, 2, 2⟩⟩
    let b : Transform ℝ := ⟨⟨5, 0, -1⟩, .identity, ⟨1, 2, -3⟩⟩
    a.rotation.IsUnit ∧ b.rotation.IsUnit ∧ negligible < |(2 : ℝ)| ∧
      (∀ p, (a.compose b).transformPoint p = a.transformPoint (b.transformPoint p)) ∧
      a.inverse.compose (a.compose b) = b ∧ (a.compose b).toMat4 = a.toMat4.multiply b.toMat4 ∧
      ∀ p, b.toMat4.transformPoint p = b.transformPoint p := by
  intro a b
  have ha : a.rotation.IsUnit := Quat.isUnit_ofYaw 90
  have hb : b.rotation.IsUnit := Quat.isUnit_identity
  have hlarge : negligible < |(2 : ℝ)| := by
    simp only [negligible, Scalar.ratio_real]
    norm_num
  obtain ⟨hpoint, hinverse, hmatrix⟩ := placements_compose.1 a b 2 ha rfl hb
  exact ⟨ha, hb, hlarge, hpoint, hinverse hlarge, hmatrix, placements_compose.2 b hb⟩

end Transform

end SpatialGrammar
