/-
SpatialGrammar/Proofs/RegionCorners.lean

Why two corners of a tile are enough to test.

A region asks of a tile's origin and of the corner opposite to it whether they lie within the
tolerance (`Region.Admits`, which is what the test of a point comes to).  Where a turn carries
axes onto axes, no two of them are carried onto the same one, and turning back carries axes
onto axes as well (`Quat.CarriesAxes.conjugate`); so each coordinate of what is turned is one
coordinate of what was there, up to its sign.  Hence each corner of such a tile is, axis by
axis, where one of the two tested corners is (`Transform.isCorner_transformPoint`), and the
region admits all eight of them if it admits these two.

Everything is stated over the real numbers.
-/
import SpatialGrammar.Geometry.Region
import SpatialGrammar.Proofs.BoxOrder
import SpatialGrammar.Proofs.Joints
import SpatialGrammar.Proofs.PlacementAlgebra

namespace SpatialGrammar

/-! ### The test of a point -/

namespace Region

variable {r : Region ℝ} {p : Vec3 ℝ}

/-- On every axis, twice the distance from the middle of the region is at most its extent and the
tolerance together. -/
def Admits (r : Region ℝ) (p : Vec3 ℝ) : Prop :=
  let two : ℝ := ((2 : Nat) : ℝ)
  |two * r.bounds.center.x - two * p.x| ≤ r.bounds.size.x + tolerance ∧
  |two * r.bounds.center.y - two * p.y| ≤ r.bounds.size.y + tolerance ∧
  |two * r.bounds.center.z - two * p.z| ≤ r.bounds.size.z + tolerance

/-- **A region contains the points that it admits.** -/
theorem containsPoint_iff : r.containsPoint p = true ↔ r.Admits p := by
  have haxis : ∀ low high x : ℝ,
      |((2 : Nat) : ℝ) * ((low + high) * Scalar.ratio 1 2) - ((2 : Nat) : ℝ) * x| ≤
          high - low + tolerance ↔
        low - tolerance * Scalar.ratio 1 2 ≤ x ∧ x ≤ high + tolerance * Scalar.ratio 1 2 := by
    intro low high x
    simp only [tolerance, Scalar.ratio_real, abs_le]
    push_cast
    constructor <;> rintro ⟨_, _⟩ <;> constructor <;> linarith
  have hbox : r.containsPoint p = true ↔
      p ∈ (r.bounds.inflate (tolerance * Scalar.ratio 1 2)).points := Iff.rfl
  rw [hbox, Box.mem_points, Vec3.le_iff, Vec3.le_iff]
  unfold Admits
  simp only [Box.center, Box.size, Box.inflate, Vec3.add_x, Vec3.add_y, Vec3.add_z, Vec3.sub_x,
    Vec3.sub_y, Vec3.sub_z, Vec3.scale_x, Vec3.scale_y, Vec3.scale_z, haxis]
  tauto

/-- What is admitted is said axis by axis, so with two corners of a box all are admitted. -/
theorem Admits.of_isCorner {b : Box ℝ} (hlow : r.Admits b.low) (hhigh : r.Admits b.high)
    (hp : b.IsCorner p) : r.Admits p := by
  obtain ⟨hx, hy, hz⟩ := hp
  refine ⟨?_, ?_, ?_⟩
  · rcases hx with hx | hx <;> rw [hx]
    · exact hlow.1
    · exact hhigh.1
  · rcases hy with hy | hy <;> rw [hy]
    · exact hlow.2.1
    · exact hhigh.2.1
  · rcases hz with hz | hz <;> rw [hz]
    · exact hlow.2.2
    · exact hhigh.2.2

end Region

/-! ### Turns that carry axes onto axes -/

namespace Vec3

/-- The point lies on one of the coordinate axes. -/
def OnAxis (v : Vec3 ℝ) : Prop :=
  (v.y = 0 ∧ v.z = 0) ∨ (v.x = 0 ∧ v.z = 0) ∨ (v.x = 0 ∧ v.y = 0)

/-- The sum of the products of the coordinates. -/
def dot (a b : Vec3 ℝ) : ℝ := a.x * b.x + a.y * b.y + a.z * b.z

@[simp] theorem dot_unitX (v : Vec3 ℝ) : v.dot .unitX = v.x := by simp [dot, unitX]

@[simp] theorem dot_unitY (v : Vec3 ℝ) : v.dot .unitY = v.y := by simp [dot, unitY]

@[simp] theorem dot_unitZ (v : Vec3 ℝ) : v.dot .unitZ = v.z := by simp [dot, unitZ]

@[simp] theorem unitX_dot (v : Vec3 ℝ) : unitX.dot v = v.x := by simp [dot, unitX]

@[simp] theorem unitY_dot (v : Vec3 ℝ) : unitY.dot v = v.y := by simp [dot, unitY]

@[simp] theorem unitZ_dot (v : Vec3 ℝ) : unitZ.dot v = v.z := by simp [dot, unitZ]

theorem onAxis_of_mul_eq_zero {v : Vec3 ℝ} (hxy : v.x * v.y = 0) (hxz : v.x * v.z = 0)
    (hyz : v.y * v.z = 0) : v.OnAxis := by
  rcases mul_eq_zero.mp hyz with hy | hz
  · rcases mul_eq_zero.mp hxz with hx | hz
    · exact .inr (.inr ⟨hx, hy⟩)
    · exact .inl ⟨hy, hz⟩
  · rcases mul_eq_zero.mp hxy with hx | hy
    · exact .inr (.inl ⟨hx, hz⟩)
    · exact .inl ⟨hy, hz⟩

/-- What is at right angles to an axis has no share in it. -/
theorem OnAxis.mul_eq_zero {a b : Vec3 ℝ} (ha : a.OnAxis) (h : a.dot b = 0) :
    a.x * b.x = 0 ∧ a.y * b.y = 0 ∧ a.z * b.z = 0 := by
  unfold dot at h
  rcases ha with ⟨h₁, h₂⟩ | ⟨h₁, h₂⟩ | ⟨h₁, h₂⟩ <;> simp_all

/-- Along an axis, what is at a corner is at one of two ends. -/
theorem OnAxis.dot_corner {a p v : Vec3 ℝ} (ha : a.OnAxis) (hp : (Box.mk .zero v).IsCorner p) :
    p.dot a = 0 ∨ p.dot a = v.dot a := by
  obtain ⟨hx, hy, hz⟩ := hp
  unfold dot
  rcases ha with ⟨h₁, h₂⟩ | ⟨h₁, h₂⟩ | ⟨h₁, h₂⟩ <;> rw [h₁, h₂]
  · rcases hx with hx | hx <;> simp [hx, zero]
  · rcases hy with hy | hy <;> simp [hy, zero]
  · rcases hz with hz | hz <;> simp [hz, zero]

theorem OnAxis.quarterTurned {v : Vec3 ℝ} (h : v.OnAxis) : v.quarterTurned.OnAxis := by
  rcases h with ⟨h₁, h₂⟩ | ⟨h₁, h₂⟩ | ⟨h₁, h₂⟩ <;> simp [OnAxis, Vec3.quarterTurned, h₁, h₂]

end Vec3

namespace Quat

variable {q : Quat ℝ}

/-- The quaternion carries each coordinate axis onto a coordinate axis. -/
structure CarriesAxes (q : Quat ℝ) : Prop where
  x : (q.rotate .unitX).OnAxis
  y : (q.rotate .unitY).OnAxis
  z : (q.rotate .unitZ).OnAxis

/-- Instead of turning one of two directions, the conjugate may turn the other one. -/
theorem dot_rotate (q : Quat ℝ) (u v : Vec3 ℝ) :
    (q.rotate u).dot v = u.dot (q.conjugate.rotate v) := by
  simp only [Vec3.dot, rotate, conjugate, Vec3.cross, Vec3.add_x, Vec3.add_y, Vec3.add_z,
    Vec3.scale_x, Vec3.scale_y, Vec3.scale_z]
  ring

/-- So angles are kept. -/
theorem IsUnit.dot_rotate_rotate (h : q.IsUnit) (u v : Vec3 ℝ) :
    (q.rotate u).dot (q.rotate v) = u.dot v := by
  rw [dot_rotate, h.conjugate_rotate]

/-- **The conjugate carries axes onto axes as well**, since no two axes are carried onto the same
one. -/
theorem CarriesAxes.conjugate (h : q.CarriesAxes) (hunit : q.IsUnit) :
    q.conjugate.CarriesAxes := by
  have hxy := h.x.mul_eq_zero ((hunit.dot_rotate_rotate .unitX .unitY).trans
    (by rw [Vec3.unitX_dot, Vec3.unitY]))
  have hxz := h.x.mul_eq_zero ((hunit.dot_rotate_rotate .unitX .unitZ).trans
    (by rw [Vec3.unitX_dot, Vec3.unitZ]))
  have hyz := h.y.mul_eq_zero ((hunit.dot_rotate_rotate .unitY .unitZ).trans
    (by rw [Vec3.unitY_dot, Vec3.unitZ]))
  -- the columns of the one matrix are the rows of the other
  have hrows : ∀ v, q.conjugate.rotate v =
      ⟨(q.rotate .unitX).dot v, (q.rotate .unitY).dot v, (q.rotate .unitZ).dot v⟩ := by
    intro v
    ext <;> simp only [dot_rotate, Vec3.unitX_dot, Vec3.unitY_dot, Vec3.unitZ_dot]
  refine ⟨?_, ?_, ?_⟩ <;> rw [hrows]
  · simp only [Vec3.dot_unitX]
    exact Vec3.onAxis_of_mul_eq_zero hxy.1 hxz.1 hyz.1
  · simp only [Vec3.dot_unitY]
    exact Vec3.onAxis_of_mul_eq_zero hxy.2.1 hxz.2.1 hyz.2.1
  · simp only [Vec3.dot_unitZ]
    exact Vec3.onAxis_of_mul_eq_zero hxy.2.2 hxz.2.2 hyz.2.2

/-- Turns about the vertical by quarters carry axes onto axes. -/
theorem carriesAxes_quarters (k : ℤ) : (ofYaw (90 * (k : ℝ))).CarriesAxes := by
  have hturned : ∀ (n : Nat) {v : Vec3 ℝ}, v.OnAxis → (Vec3.quarterTurned^[n] v).OnAxis := by
    intro n
    induction n with
    | zero => exact id
    | succ n ih => exact fun h => ih h.quarterTurned
  have haxis : ∀ {v : Vec3 ℝ}, v.OnAxis → ((ofYaw (90 * (k : ℝ))).rotate v).OnAxis := by
    intro v h
    have hnat : ((k % 4).toNat : ℤ) = k % 4 := Int.toNat_of_nonneg (Int.emod_nonneg k (by decide))
    rw [← rotate_emod, ← hnat, Int.cast_natCast, rotate_quarters]
    exact hturned _ h
  exact ⟨haxis (.inl ⟨rfl, rfl⟩), haxis (.inr (.inl ⟨rfl, rfl⟩)), haxis (.inr (.inr ⟨rfl, rfl⟩))⟩

end Quat

/-! ### Corners of a placed tile -/

namespace Box

variable {p v : Vec3 ℝ}

/-- A tile has the corners that its size says, whichever way the size points. -/
theorem isCorner_ofOriginSize_zero :
    (ofOriginSize .zero v).IsCorner p ↔ (Box.mk .zero v).IsCorner p := by
  rw [isCorner_ofOriginSize]
  simp only [Vec3.zero, zero_add, IsCorner]

theorem isCorner_mul (h : (Box.mk .zero v).IsCorner p) (s : Vec3 ℝ) :
    (Box.mk .zero (v.mul s)).IsCorner (p.mul s) := by
  have haxis : ∀ {p v : ℝ} (s : ℝ), p = 0 ∨ p = v → p * s = 0 ∨ p * s = v * s := by
    rintro p v s (rfl | rfl)
    · exact .inl (zero_mul s)
    · exact .inr rfl
  exact ⟨haxis s.x h.1, haxis s.y h.2.1, haxis s.z h.2.2⟩

theorem isCorner_rotate {q : Quat ℝ} (h : (Box.mk .zero v).IsCorner p) (hunit : q.IsUnit)
    (haxes : q.CarriesAxes) : (Box.mk .zero (q.rotate v)).IsCorner (q.rotate p) := by
  have hback := haxes.conjugate hunit
  -- a coordinate of what is turned is found along the axis that the conjugate carries it to
  have haxis : ∀ {u : Vec3 ℝ}, (q.conjugate.rotate u).OnAxis →
      (q.rotate p).dot u = 0 ∨ (q.rotate p).dot u = (q.rotate v).dot u := by
    intro u hu
    rw [Quat.dot_rotate, Quat.dot_rotate]
    exact hu.dot_corner h
  have hx := haxis hback.x
  have hy := haxis hback.y
  have hz := haxis hback.z
  rw [Vec3.dot_unitX, Vec3.dot_unitX] at hx
  rw [Vec3.dot_unitY, Vec3.dot_unitY] at hy
  rw [Vec3.dot_unitZ, Vec3.dot_unitZ] at hz
  exact ⟨hx, hy, hz⟩

theorem isCorner_add (h : (Box.mk .zero v).IsCorner p) (t : Vec3 ℝ) :
    (Box.mk t (v.add t)).IsCorner (p.add t) := by
  have haxis : ∀ {p v : ℝ} (t : ℝ), p = 0 ∨ p = v → p + t = t ∨ p + t = v + t := by
    rintro p v t (rfl | rfl)
    · exact .inl (zero_add t)
    · exact .inr rfl
  exact ⟨haxis t.x h.1, haxis t.y h.2.1, haxis t.z h.2.2⟩

end Box

namespace Transform

variable {t : Transform ℝ} {p size : Vec3 ℝ}

theorem transformPoint_zero (t : Transform ℝ) : t.transformPoint .zero = t.position := by
  ext <;> simp [transformPoint, Quat.rotate, Vec3.mul, Vec3.zipWith, Vec3.zero, Vec3.cross]

/-- **Each corner of a placed tile is, axis by axis, where its origin or
the opposite corner is.** -/
theorem isCorner_transformPoint (hunit : t.rotation.IsUnit) (haxes : t.rotation.CarriesAxes)
    (hp : (Box.mk .zero size).IsCorner p) :
    (Box.mk t.position (t.transformPoint size)).IsCorner (t.transformPoint p) :=
  Box.isCorner_add (Box.isCorner_rotate (Box.isCorner_mul hp t.scale) hunit haxes) t.position

end Transform

namespace Region

/-- **Two corners are enough.**  If the turn of a tile carries axes onto axes, as quarter turns do,
the test of its origin and of the opposite corner is passed exactly if all eight corners are within
the tolerance. -/
theorem containsTile_iff_corners :
    (∀ (r : Region ℝ) (world : Transform ℝ) (size : Vec3 ℝ), world.rotation.IsUnit →
      world.rotation.CarriesAxes →
      (r.containsTile world size = true ↔
        ∀ p, (Box.ofOriginSize .zero size).IsCorner p → r.Admits (world.transformPoint p))) ∧
    ∀ k : ℤ, (Quat.ofYaw (90 * (k : ℝ))).IsUnit ∧ (Quat.ofYaw (90 * (k : ℝ))).CarriesAxes := by
  refine ⟨fun r world size hunit haxes => ?_, fun k => ⟨Quat.isUnit_ofYaw _,
    Quat.carriesAxes_quarters k⟩⟩
  unfold containsTile
  simp only [Bool.and_eq_true, containsPoint_iff, Box.isCorner_ofOriginSize_zero]
  constructor
  · rintro ⟨hlow, hhigh⟩ p hp
    exact Admits.of_isCorner hlow hhigh (Transform.isCorner_transformPoint hunit haxes hp)
  · intro h
    refine ⟨?_, h size ⟨.inr rfl, .inr rfl, .inr rfl⟩⟩
    rw [← Transform.transformPoint_zero world]
    exact h .zero ⟨.inl rfl, .inl rfl, .inl rfl⟩

/-- A tile that is turned once and whose size points backwards on the third axis. -/
theorem containsTile_iff_corners_turned :
    let r : Region ℝ := .ofOriginSize .zero ⟨10, 10, 10⟩
    let world : Transform ℝ := ⟨⟨1, 0, 2⟩, .ofYaw (90 * ((1 : ℤ) : ℝ)), .one⟩
    let size : Vec3 ℝ := ⟨2, 1, -1⟩
    world.rotation.IsUnit ∧ world.rotation.CarriesAxes ∧ r.containsTile world size = true ∧
      ∀ p, (Box.ofOriginSize .zero size).IsCorner p → r.Admits (world.transformPoint p) := by
  intro r world size
  obtain ⟨hunit, haxes⟩ := containsTile_iff_corners.2 1
  have hopposite : world.transformPoint size = ⟨0, 1, 0⟩ := by
    simp only [world, size, Transform.transformPoint, Int.cast_one, mul_one, Quat.rotate_quarter]
    ext <;> norm_num [Vec3.quarterTurned, Vec3.mul, Vec3.zipWith, Vec3.one]
  have htile : r.containsTile world size = true := by
    unfold containsTile
    rw [hopposite, Bool.and_eq_true]
    constructor <;>
      norm_num [r, world, containsPoint, ofOriginSize, Box.ofOriginSize, Box.ofCorners, Box.hull,
        Box.point, Box.union, Box.inflate, Box.contains, tolerance, Vec3.zipWith, Vec3.zero]
  exact ⟨hunit, haxes, htile, (containsTile_iff_corners.1 r world size hunit haxes).mp htile⟩

end Region

end SpatialGrammar
