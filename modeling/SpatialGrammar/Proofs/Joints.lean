/-
SpatialGrammar/Proofs/Joints.lean

Which joins of two tiles meet along the whole edge.

When a tile is put on an upright face of another one, its edge starts at a point of the
anchor's edge and runs along it, forward or backward (`StandingTile.transformPoint_align`,
`TileShape.rotate_along`).  Backward it has to start at the end of the anchor's span.  It does
so for all joins that run backward but two, of the faces `x+` and `z-` with each other
(`TileShape.overlooked`): there the tile ends up beside the anchor's edge.

Everything is stated over the real numbers.
-/
import Mathlib.Data.Set.Image
import Mathlib.Tactic.IntervalCases
import SpatialGrammar.Proofs.ExactNumbers
import SpatialGrammar.Tile.Placement

namespace SpatialGrammar

/-! ### Quarter turns -/

/-- A vector after a quarter turn about the upward axis. -/
def Vec3.quarterTurned {α : Type} [Scalar α] (v : Vec3 α) : Vec3 α := ⟨v.z, v.y, -v.x⟩

namespace Quat

theorem rotate_quarter (v : Vec3 ℝ) : (ofYaw 90).rotate v = v.quarterTurned := by
  have hangle : Angle.toRadians (90 : ℝ) = Real.pi / 2 := by
    unfold Angle.toRadians
    rw [Angle.fullTurn_real, Scalar.tau_real]
    ring
  rw [rotate_ofYaw, hangle, Real.cos_pi_div_two, Real.sin_pi_div_two]
  ext <;> simp [Vec3.quarterTurned]

@[simp] theorem ofYaw_zero : (ofYaw 0 : Quat ℝ) = identity := by
  have hangle : Angle.toRadians (0 : ℝ) / 2 = 0 := by
    unfold Angle.toRadians
    ring
  rw [ofYaw_eq, hangle, Real.sin_zero, Real.cos_zero]
  simp [identity]

/-- So many quarter turns, one after another. -/
theorem rotate_quarters (n : Nat) (v : Vec3 ℝ) :
    (ofYaw (90 * (n : ℝ))).rotate v = Vec3.quarterTurned^[n] v := by
  induction n with
  | zero => simp
  | succ n ih =>
    have hangle : 90 * ((n + 1 : Nat) : ℝ) = 90 + 90 * (n : ℝ) := by
      push_cast
      ring
    rw [hangle, rotate_ofYaw_add, ih, rotate_quarter, Function.iterate_succ_apply']

/-- Whole turns make no difference. -/
theorem rotate_emod (k : ℤ) (v : Vec3 ℝ) :
    (ofYaw (90 * ((k % 4 : ℤ) : ℝ))).rotate v = (ofYaw (90 * (k : ℝ))).rotate v := by
  have hk : (k : ℝ) = ((k % 4 : ℤ) : ℝ) + 4 * ((k / 4 : ℤ) : ℝ) := by
    exact_mod_cast (Int.emod_add_mul_ediv k 4).symm
  have hangle : 90 * (k : ℝ) = 90 * ((k % 4 : ℤ) : ℝ) + 360 * ((k / 4 : ℤ) : ℝ) := by
    linarith
  rw [hangle, rotate_ofYaw_fullTurn]

theorem rotate_ofYaw_injective (d : ℝ) : Function.Injective (ofYaw d).rotate := by
  refine Function.LeftInverse.injective (g := (ofYaw (-d)).rotate) ?_
  intro v
  rw [← rotate_ofYaw_add, neg_add_cancel, ofYaw_zero, identity_rotate]

end Quat

namespace Transform

/-- A whole number of quarter turns is told from what it does. -/
theorem quantizedYaw_quarters {pose : Transform ℝ} {k : ℤ}
    (h : pose.rotation = Quat.ofYaw (90 * (k : ℝ))) :
    pose.quantizedYaw = 90 * ((k % 4 : ℤ) : ℝ) := by
  obtain ⟨j, hj⟩ : ∃ j : Nat, k % 4 = j := Int.eq_ofNat_of_zero_le (by omega)
  have hlt : j < 4 := by omega
  have hyaw : pose.yaw = 90 * (j : ℝ) := by
    have hsmall : (j : ℝ) < 4 := by exact_mod_cast hlt
    -- the yaw is read off the image of an axis, for which whole turns make no difference
    have hsame : pose.yaw = (Quat.ofYaw (90 * (j : ℝ)) : Quat ℝ).yaw := by
      have hrotate := Quat.rotate_emod k .unitX
      rw [hj] at hrotate
      unfold Transform.yaw Quat.yaw
      rw [h, ← hrotate]
      norm_num
    rw [hsame]
    exact Quat.yaw_ofYaw (by positivity) (by linarith)
  rw [hj]
  unfold quantizedYaw
  simp only [hyaw, yawTolerance, List.find?, Scalar.abs_real, Scalar.ratio_real]
  interval_cases j <;> norm_num [abs_of_pos, abs_of_neg]

end Transform

theorem AxisMode.turn_real (mode : AxisMode) (source target : Face) :
    (mode.turn source target : ℝ) = 90 * (mode.quarterTurns source target : ℝ) := by
  unfold turn
  push_cast
  ring

/-! ### Edges -/

/-- The points from `a` to `b`. -/
def Vec3.between (a b : Vec3 ℝ) : Set (Vec3 ℝ) :=
  {p | ∃ t : ℝ, 0 ≤ t ∧ t ≤ 1 ∧ p = a.add ((b.sub a).scale t)}

theorem Vec3.between_subset_comm (a b : Vec3 ℝ) : between a b ⊆ between b a := by
  rintro p ⟨t, hnonneg, hle, rfl⟩
  refine ⟨1 - t, by linarith, by linarith, ?_⟩
  ext <;> simp <;> ring

theorem Vec3.between_comm (a b : Vec3 ℝ) : between a b = between b a :=
  Set.Subset.antisymm (between_subset_comm a b) (between_subset_comm b a)

/-- Running the other way from one point ends elsewhere. -/
theorem Vec3.between_ne {a d : Vec3 ℝ} (hd : d ≠ .zero) :
    between a (a.add (d.scale (-1))) ≠ between a (a.add d) := by
  intro heq
  have hmem : a.add d ∈ between a (a.add d) := ⟨1, by simp, by simp, by ext <;> simp⟩
  rw [← heq] at hmem
  obtain ⟨t, hnonneg, -, hp⟩ := hmem
  -- so `d` is a multiple of itself by a number that is not positive
  have hzero : ∀ c : ℝ, c = -(c * t) → c = 0 := by
    intro c hc
    have hprod : c * (1 + t) = 0 := by linarith
    exact (mul_eq_zero.mp hprod).resolve_right (by linarith)
  apply hd
  ext
  · exact hzero d.x (by simpa using congrArg Vec3.x hp)
  · exact hzero d.y (by simpa using congrArg Vec3.y hp)
  · exact hzero d.z (by simpa using congrArg Vec3.z hp)

namespace Transform

/-- A placement takes the points from `a` to `b` to those from the image of `a` to the image of
`b`. -/
theorem image_between (pose : Transform ℝ) (a b : Vec3 ℝ) :
    pose.transformPoint '' Vec3.between a b =
      Vec3.between (pose.transformPoint a) (pose.transformPoint b) := by
  -- the shift drops out of differences, and the rest is linear
  have hpoint : ∀ t : ℝ, pose.transformPoint (a.add ((b.sub a).scale t)) =
      (pose.transformPoint a).add
        (((pose.transformPoint b).sub (pose.transformPoint a)).scale t) := by
    intro t
    ext <;> simp [transformPoint, Quat.rotate, Vec3.cross, Vec3.mul, Vec3.zipWith] <;> ring
  ext p
  constructor
  · rintro ⟨_, ⟨t, hnonneg, hle, rfl⟩, rfl⟩
    exact ⟨t, hnonneg, hle, hpoint t⟩
  · rintro ⟨t, hnonneg, hle, rfl⟩
    exact ⟨_, ⟨t, hnonneg, hle, rfl⟩, hpoint t⟩

theorem transformPoint_injective {pose : Transform ℝ} {d : ℝ}
    (hrotation : pose.rotation = Quat.ofYaw d) (hscale : pose.scale = .one) :
    Function.Injective pose.transformPoint := by
  intro a b hab
  unfold transformPoint at hab
  rw [hscale, hrotation, Vec3.mul_one, Vec3.mul_one] at hab
  apply Quat.rotate_ofYaw_injective d
  ext
  · simpa using congrArg Vec3.x hab
  · simpa using congrArg Vec3.y hab
  · simpa using congrArg Vec3.z hab

end Transform

/-- The way in which the span of a face runs. -/
def Face.along {α : Type} [Scalar α] : Face → Vec3 α
  | .xPos | .xNeg => .unitZ
  | .zNeg | .zPos => .unitX
  | .yPos | .yNeg => .zero

namespace TileShape

/-- The joins that reverse the neighbour and are not taken for such. -/
def overlooked (anchor moving : Face) : Bool :=
  (anchor, moving) = (.xPos, .zNeg) || (anchor, moving) = (.zNeg, .xPos)

theorem revertedPivot_eq {t : TileShape ℝ} {face : Face} {s : FaceSpan ℝ}
    (h : t.spans.get? face = some s) :
    t.revertedPivot face = (t.pivot face).add (face.along.scale (s.last - s.first)) := by
  cases face <;> simp [FaceSpans.get?] at h <;> subst h <;>
    ext <;> simp [revertedPivot, pivot, pivotAt, Face.along, Vec3.unitX, Vec3.unitZ]

/-- A span that has a length runs somewhere. -/
theorem along_scale_ne {t : TileShape ℝ} {face : Face} {s : FaceSpan ℝ} {x : ℝ}
    (h : t.spans.get? face = some s) (hx : x ≠ 0) : face.along.scale x ≠ .zero := by
  intro hzero
  apply hx
  cases face with
  | xPos | xNeg => simpa [Face.along, Vec3.unitZ, Vec3.zero] using congrArg Vec3.z hzero
  | zNeg | zPos => simpa [Face.along, Vec3.unitX, Vec3.zero] using congrArg Vec3.x hzero
  | yPos | yNeg => simp [FaceSpans.get?] at h

/-- The turn that brings the moving tile's face toward the anchor's brings its span into the line of
the anchor's, the other way round if the join reverses. -/
theorem rotate_along {t u : TileShape ℝ} {a m : Face} {s r : FaceSpan ℝ}
    (ha : t.spans.get? a = some s) (hm : u.spans.get? m = some r) :
    (Quat.ofYaw (AxisMode.xz.turn m a.opposite)).rotate m.along =
      a.along.scale (if reverses a m || overlooked a m then -1 else 1 : ℝ) := by
  rw [AxisMode.turn_real, Quat.rotate_quarters]
  cases a <;> simp [FaceSpans.get?] at ha <;> cases m <;> simp [FaceSpans.get?] at hm <;>
    ext <;> simp [AxisMode.quarterTurns, Face.index, Face.opposite, Face.along, reverses,
      overlooked, Vec3.quarterTurned, Vec3.unitX, Vec3.unitZ]

end TileShape

namespace StandingTile

/-- The part of the space that the span of a face takes. -/
def edge (tile : StandingTile ℝ) (face : Face) : Set (Vec3 ℝ) :=
  Vec3.between (tile.pose.transformPoint (tile.shape.pivot face))
    (tile.pose.transformPoint (tile.shape.revertedPivot face))

theorem edge_eq_image {tile : StandingTile ℝ} {face : Face} {s : FaceSpan ℝ}
    (h : tile.shape.spans.get? face = some s) :
    tile.edge face = tile.pose.transformPoint '' Vec3.between (tile.shape.pivot face)
      ((tile.shape.pivot face).add (face.along.scale (s.last - s.first))) := by
  rw [Transform.image_between, ← TileShape.revertedPivot_eq h]
  rfl

section Align

variable {anchor : StandingTile ℝ} {moving : TileShape ℝ} {a m : Face} {s r : FaceSpan ℝ} {k : ℤ}

/-- The placement of a tile put on a face: turned with the anchor, then toward it, and shifted until
the beginning of its span meets the anchor. -/
theorem align_eq (hrotation : anchor.pose.rotation = .ofYaw (90 * (k : ℝ)))
    (hm : moving.spans.get? m = some r) :
    anchor.align a ⟨moving, .identity⟩ m .xz =
      ⟨(anchor.pose.transformPoint (anchor.shape.anchorPivot a m)).sub
        ((Quat.ofYaw (90 * ((k % 4 : ℤ) : ℝ) + AxisMode.xz.turn m a.opposite)).rotate
          (moving.pivot m)),
        .ofYaw (90 * ((k % 4 : ℤ) : ℝ) + AxisMode.xz.turn m a.opposite), .one⟩ := by
  have hturned : ∀ d : ℝ, ((Transform.identity : Transform ℝ).rotation.multiply
      (.ofYaw d)).normalize = .ofYaw d := by
    intro d
    show (Quat.identity.multiply (.ofYaw d)).normalize = .ofYaw d
    rw [Quat.identity_multiply, Quat.normalize_ofYaw]
  have hreference : ∀ d : ℝ, moving.referencePoint ⟨.zero, .ofYaw d, .one⟩ m =
      (Quat.ofYaw d).rotate (moving.pivot m) := by
    intro d
    cases m <;> simp [FaceSpans.get?] at hm <;>
      simp [TileShape.referencePoint, Transform.transformPoint]
  -- it stood at the origin before it was shifted
  unfold align
  simp only [hturned, Transform.quantizedYaw_quarters hrotation]
  rw [← hreference]
  show Transform.mk (Vec3.zero.add _) _ _ = _
  rw [Vec3.zero_add]
  rfl

/-- Within the frame of the anchor, such a tile is turned about the point that meets the anchor. -/
theorem transformPoint_align (hrotation : anchor.pose.rotation = .ofYaw (90 * (k : ℝ)))
    (hscale : anchor.pose.scale = .one) (hm : moving.spans.get? m = some r) (p : Vec3 ℝ) :
    (anchor.align a ⟨moving, .identity⟩ m .xz).transformPoint p =
      anchor.pose.transformPoint ((anchor.shape.anchorPivot a m).add
        ((Quat.ofYaw (AxisMode.xz.turn m a.opposite)).rotate (p.sub (moving.pivot m)))) := by
  rw [align_eq hrotation hm]
  unfold Transform.transformPoint
  rw [hscale, hrotation, Vec3.mul_one, Vec3.mul_one, Vec3.mul_one, Quat.rotate_ofYaw_add,
    Quat.rotate_ofYaw_add, Quat.rotate_emod, Quat.rotate_emod, Quat.rotate_sub, Quat.rotate_add,
    Quat.rotate_sub]
  ext <;> simp <;> ring

/-- The edge of such a tile, within the frame of the anchor. -/
theorem edge_align (hrotation : anchor.pose.rotation = .ofYaw (90 * (k : ℝ)))
    (hscale : anchor.pose.scale = .one) (ha : anchor.shape.spans.get? a = some s)
    (hm : moving.spans.get? m = some r) :
    edge ⟨moving, anchor.align a ⟨moving, .identity⟩ m .xz⟩ m =
      anchor.pose.transformPoint '' Vec3.between (anchor.shape.anchorPivot a m)
        ((anchor.shape.anchorPivot a m).add ((a.along.scale (r.last - r.first)).scale
          (if TileShape.reverses a m || TileShape.overlooked a m then -1 else 1))) := by
  have hfirst : (moving.pivot m).sub (moving.pivot m) = .zero := by
    ext <;> simp [Vec3.zero]
  have hlast : (moving.revertedPivot m).sub (moving.pivot m) =
      m.along.scale (r.last - r.first) := by
    rw [TileShape.revertedPivot_eq hm]
    ext <;> simp
  have hzero : ∀ q : Quat ℝ, q.rotate .zero = .zero := by
    intro q
    ext <;> simp [Quat.rotate, Vec3.cross, Vec3.zero]
  rw [Transform.image_between]
  unfold edge
  rw [transformPoint_align hrotation hscale hm, transformPoint_align hrotation hscale hm, hfirst,
    hlast, hzero, Vec3.add_zero, Quat.rotate_scale, TileShape.rotate_along ha hm]
  congr 3
  ext <;> simp

/-- Unless the join is overlooked, the two tiles share the edge at which they are joined. -/
theorem edge_align_of_not_overlooked (hrotation : anchor.pose.rotation = .ofYaw (90 * (k : ℝ)))
    (hscale : anchor.pose.scale = .one) (ha : anchor.shape.spans.get? a = some s)
    (hm : moving.spans.get? m = some r) (hlength : r.last - r.first = s.last - s.first)
    (hjoin : TileShape.overlooked a m = false) :
    edge ⟨moving, anchor.align a ⟨moving, .identity⟩ m .xz⟩ m = anchor.edge a := by
  rw [edge_align hrotation hscale ha hm, edge_eq_image ha, hlength, hjoin]
  unfold TileShape.anchorPivot
  cases hreverses : TileShape.reverses a m with
  | false =>
    congr 2
    ext <;> simp
  | true =>
    -- the span is run through from its end back to its beginning
    have hback : (anchor.shape.revertedPivot a).add
        ((a.along.scale (s.last - s.first)).scale (-1)) = anchor.shape.pivot a := by
      rw [TileShape.revertedPivot_eq ha]
      ext <;> simp
    simp only [Bool.true_or, if_true]
    rw [hback, TileShape.revertedPivot_eq ha, Vec3.between_comm]

/-- In an overlooked join the edge runs away from the anchor's edge, if it has a length. -/
theorem edge_align_of_overlooked (hrotation : anchor.pose.rotation = .ofYaw (90 * (k : ℝ)))
    (hscale : anchor.pose.scale = .one) (ha : anchor.shape.spans.get? a = some s)
    (hm : moving.spans.get? m = some r) (hlength : r.last - r.first = s.last - s.first)
    (hjoin : TileShape.overlooked a m = true) :
    edge ⟨moving, anchor.align a ⟨moving, .identity⟩ m .xz⟩ m = anchor.edge a ↔
      s.first = s.last := by
  have hforward : TileShape.reverses a m = false := by
    revert hjoin
    cases a <;> cases m <;> decide
  rw [edge_align hrotation hscale ha hm, edge_eq_image ha, hlength, hjoin]
  unfold TileShape.anchorPivot
  rw [hforward, (Transform.transformPoint_injective hrotation hscale).image_injective.eq_iff]
  constructor
  · -- from the beginning of the anchor's span, one runs forward and the other backward
    intro heq
    by_contra hne
    refine Vec3.between_ne (TileShape.along_scale_ne ha ?_) heq
    exact sub_ne_zero.mpr fun h => hne h.symm
  · -- a span without length is a point, whichever way it runs
    intro heq
    have hpoint : ∀ v : Vec3 ℝ, v.scale (s.last - s.first) = .zero := by
      intro v
      rw [heq]
      ext <;> simp [Vec3.zero]
    rw [hpoint]
    congr 2
    ext <;> simp [Vec3.zero]

/-- For spans of one length, the joined tiles share the edge at which they are joined, except if the
join is of the faces `x+` and `z-` with each other and the span has a length. -/
theorem edge_align_iff (hrotation : anchor.pose.rotation = .ofYaw (90 * (k : ℝ)))
    (hscale : anchor.pose.scale = .one) (ha : anchor.shape.spans.get? a = some s)
    (hm : moving.spans.get? m = some r) (hlength : r.last - r.first = s.last - s.first) :
    edge ⟨moving, anchor.align a ⟨moving, .identity⟩ m .xz⟩ m = anchor.edge a ↔
      ((a, m) ≠ (.xPos, .zNeg) ∧ (a, m) ≠ (.zNeg, .xPos)) ∨ s.first = s.last := by
  have hspelled : TileShape.overlooked a m = false ↔
      (a, m) ≠ (.xPos, .zNeg) ∧ (a, m) ≠ (.zNeg, .xPos) := by
    simp [TileShape.overlooked]
  cases hjoin : TileShape.overlooked a m with
  | false =>
    have hshared := edge_align_of_not_overlooked hrotation hscale ha hm hlength hjoin
    exact iff_of_true hshared (.inl (hspelled.mp hjoin))
  | true =>
    rw [edge_align_of_overlooked hrotation hscale ha hm hlength hjoin, ← hspelled, hjoin]
    simp

end Align

end StandingTile

/-- A cube whose upright faces take neighbours along the whole edge. -/
noncomputable def TileShape.cube : TileShape ℝ :=
  ⟨.one, ⟨1, 1, 1, 1, 0, 0⟩, ⟨⟨0, 1⟩, ⟨0, 1⟩, ⟨0, 1⟩, ⟨0, 1⟩⟩⟩

/-- A cube with its face `z+` on the face `x-` of another one that is turned and shifted. -/
theorem StandingTile.edge_align_cubes :
    edge ⟨.cube, align ⟨.cube, ⟨⟨5, 0, 2⟩, .ofYaw (90 * ((3 : ℤ) : ℝ)), .one⟩⟩ .xNeg
      ⟨.cube, .identity⟩ .zPos .xz⟩ .zPos =
    edge ⟨.cube, ⟨⟨5, 0, 2⟩, .ofYaw (90 * ((3 : ℤ) : ℝ)), .one⟩⟩ .xNeg :=
  Iff.mpr (edge_align_iff (k := 3) (s := ⟨0, 1⟩) (r := ⟨0, 1⟩) rfl rfl rfl rfl rfl)
    (.inl (by decide))

/-- Two cubes, put together at the faces `x+` and `z-` along edges of the same length, do not share
an edge. -/
theorem StandingTile.edge_align_cubes_ne :
    TileShape.cube.spans.get? .xPos = some ⟨0, 1⟩ ∧
    TileShape.cube.spans.get? .zNeg = some ⟨0, 1⟩ ∧
    edge ⟨.cube, align ⟨.cube, .identity⟩ .xPos ⟨.cube, .identity⟩ .zNeg .xz⟩ .zNeg ≠
      edge ⟨.cube, .identity⟩ .xPos := by
  have hrotation : (Transform.identity : Transform ℝ).rotation = .ofYaw (90 * ((0 : ℤ) : ℝ)) := by
    simp [Transform.identity]
  refine ⟨rfl, rfl, ?_⟩
  rw [Ne, edge_align_of_overlooked (s := ⟨0, 1⟩) (r := ⟨0, 1⟩) hrotation rfl rfl rfl rfl rfl]
  norm_num

end SpatialGrammar
