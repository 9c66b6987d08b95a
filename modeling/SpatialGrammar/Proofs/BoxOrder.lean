/-
SpatialGrammar/Proofs/BoxOrder.lean

Boxes ordered by what they hold.

Points are compared axis by axis, so a box holds the points of an interval
(`Box.points_eq`), and one box is part of another if its interval is.  In this order the union
is the least upper bound, and so is whatever is folded from unions: the hull of points and the
box around a list of boxes (`Box.foldl_union_le_iff`).

The image of a box under an affine map is a slanted body, and the transformed box is the hull
of the images of the corners.  It holds the whole body, because a half-space that holds the
corners of a box holds the box (`Box.between_of_corners`).

`Box.IsHull` says that a box is the smallest one that holds given points.  The corners of a box
may be the wrong way round; then it holds no point, and `Box.Ordered` excludes it where that
matters.

Everything is stated over the real numbers.
-/
import Mathlib.Order.Interval.Set.Basic
import SpatialGrammar.Geometry.Box
import SpatialGrammar.Proofs.ExactNumbers

namespace SpatialGrammar

/-! ### Points -/

namespace Vec3

/-- Points are compared axis by axis. -/
instance : PartialOrder (Vec3 ℝ) where
  le a b := a.x ≤ b.x ∧ a.y ≤ b.y ∧ a.z ≤ b.z
  le_refl a := ⟨le_refl a.x, le_refl a.y, le_refl a.z⟩
  le_trans a b c hab hbc := ⟨hab.1.trans hbc.1, hab.2.1.trans hbc.2.1, hab.2.2.trans hbc.2.2⟩
  le_antisymm a b hab hba := by
    ext
    · exact le_antisymm hab.1 hba.1
    · exact le_antisymm hab.2.1 hba.2.1
    · exact le_antisymm hab.2.2 hba.2.2

theorem le_iff {a b : Vec3 ℝ} : a ≤ b ↔ a.x ≤ b.x ∧ a.y ≤ b.y ∧ a.z ≤ b.z := Iff.rfl

/-- So are their greatest lower and least upper bounds made. -/
noncomputable instance : Lattice (Vec3 ℝ) where
  inf := zipWith min
  inf_le_left a b := ⟨min_le_left a.x b.x, min_le_left a.y b.y, min_le_left a.z b.z⟩
  inf_le_right a b := ⟨min_le_right a.x b.x, min_le_right a.y b.y, min_le_right a.z b.z⟩
  le_inf _ _ _ hab hac :=
    ⟨le_min hab.1 hac.1, le_min hab.2.1 hac.2.1, le_min hab.2.2 hac.2.2⟩
  sup := zipWith max
  le_sup_left a b := ⟨le_max_left a.x b.x, le_max_left a.y b.y, le_max_left a.z b.z⟩
  le_sup_right a b := ⟨le_max_right a.x b.x, le_max_right a.y b.y, le_max_right a.z b.z⟩
  sup_le _ _ _ hac hbc :=
    ⟨max_le hac.1 hbc.1, max_le hac.2.1 hbc.2.1, max_le hac.2.2 hbc.2.2⟩

end Vec3

/-! ### Boxes -/

namespace Box

@[ext] theorem ext_real {a b : Box ℝ} (hlow : a.low = b.low) (hhigh : a.high = b.high) : a = b := by
  cases a
  cases b
  simp_all

/-- The points that a box holds. -/
def points (b : Box ℝ) : Set (Vec3 ℝ) := {p | b.contains p = true}

/-- The corners of the box are the right way round. -/
def Ordered (b : Box ℝ) : Prop := b.low ≤ b.high

theorem points_eq (b : Box ℝ) : b.points = Set.Icc b.low b.high := by
  ext p
  simp only [points, contains, Set.mem_ofPred_eq, Bool.and_eq_true, decide_eq_true_eq, Set.mem_Icc,
    Vec3.le_iff]
  tauto

theorem mem_points {b : Box ℝ} {p : Vec3 ℝ} : p ∈ b.points ↔ b.low ≤ p ∧ p ≤ b.high := by
  rw [points_eq, Set.mem_Icc]

/-- A box is part of another if its corners lie between those of the other, and the union of two
boxes is the smallest that both are part of. -/
noncomputable instance : SemilatticeSup (Box ℝ) where
  le b c := c.low ≤ b.low ∧ b.high ≤ c.high
  le_refl b := ⟨le_refl b.low, le_refl b.high⟩
  le_trans a b c hab hbc := ⟨hbc.1.trans hab.1, hab.2.trans hbc.2⟩
  le_antisymm a b hab hba := ext_real (le_antisymm hba.1 hab.1) (le_antisymm hab.2 hba.2)
  sup := union
  le_sup_left a b := ⟨inf_le_left (a := a.low), le_sup_left (a := a.high)⟩
  le_sup_right a b := ⟨inf_le_right (a := a.low), le_sup_right (a := a.high)⟩
  sup_le a b c hac hbc := ⟨le_inf hac.1 hbc.1, sup_le hac.2 hbc.2⟩

variable {b c : Box ℝ} {p : Vec3 ℝ}

theorem points_mono (h : b ≤ c) : b.points ⊆ c.points := by
  rw [points_eq, points_eq]
  exact Set.Icc_subset_Icc h.1 h.2

theorem Ordered.le_iff_subset (hb : b.Ordered) : b ≤ c ↔ b.points ⊆ c.points := by
  rw [points_eq, points_eq, Set.Icc_subset_Icc_iff hb]
  rfl

theorem Ordered.mono (hb : b.Ordered) (h : b ≤ c) : c.Ordered := h.1.trans (hb.trans h.2)

theorem point_le_iff : point p ≤ c ↔ p ∈ c.points := mem_points.symm

theorem ordered_point (p : Vec3 ℝ) : (point p).Ordered := le_refl p

/-- **A box holds what is folded from unions if it holds all that went into it.** -/
theorem foldl_union_le_iff {bs : List (Box ℝ)} :
    bs.foldl union b ≤ c ↔ b ≤ c ∧ ∀ a ∈ bs, a ≤ c := by
  induction bs generalizing b with
  | nil => simp
  | cons a bs ih =>
    have hsup : b.union a ≤ c ↔ b ≤ c ∧ a ≤ c := sup_le_iff
    rw [List.foldl_cons, ih, hsup, List.forall_mem_cons, and_assoc]

theorem hull_eq (p : Vec3 ℝ) (ps : List (Vec3 ℝ)) :
    hull p ps = (ps.map point).foldl union (point p) := by
  rw [hull, List.foldl_map]

theorem hull_le_iff {ps : List (Vec3 ℝ)} : hull p ps ≤ c ↔ ∀ q ∈ p :: ps, q ∈ c.points := by
  rw [hull_eq, foldl_union_le_iff, List.forall_mem_map, List.forall_mem_cons]
  simp only [point_le_iff]

theorem ordered_hull (p : Vec3 ℝ) (ps : List (Vec3 ℝ)) : (hull p ps).Ordered := by
  have hself := (hull_le_iff (c := hull p ps)).mp le_rfl
  exact (ordered_point p).mono (point_le_iff.mpr (hself p List.mem_cons_self))

theorem unionAll?_le_iff {bs : List (Box ℝ)} (h : unionAll? bs = some b) :
    b ≤ c ↔ ∀ a ∈ bs, a ≤ c := by
  cases bs with
  | nil => cases h
  | cons a bs =>
    obtain rfl := Option.some.inj h
    rw [foldl_union_le_iff, List.forall_mem_cons]

/-! ### Corners -/

/-- On each axis the point is where one of the two corners of the box is. -/
def IsCorner (b : Box ℝ) (q : Vec3 ℝ) : Prop :=
  (q.x = b.low.x ∨ q.x = b.high.x) ∧ (q.y = b.low.y ∨ q.y = b.high.y) ∧
    (q.z = b.low.z ∨ q.z = b.high.z)

theorem mem_corners {q : Vec3 ℝ} : q ∈ b.low :: b.otherCorners ↔ b.IsCorner q := by
  simp only [otherCorners, List.mem_cons, List.not_mem_nil, or_false, Vec3.ext_real_iff, IsCorner]
  tauto

theorem Ordered.mem_points_of_isCorner {q : Vec3 ℝ} (hb : b.Ordered) (hq : b.IsCorner q) :
    q ∈ b.points := by
  have hend : ∀ {l h e : ℝ}, l ≤ h → e = l ∨ e = h → l ≤ e ∧ e ≤ h := by
    rintro l h e hle (rfl | rfl)
    · exact ⟨le_rfl, hle⟩
    · exact ⟨hle, le_rfl⟩
  obtain ⟨hx, hy, hz⟩ := hq
  have hx := hend hb.1 hx
  have hy := hend hb.2.1 hy
  have hz := hend hb.2.2 hz
  exact mem_points.mpr ⟨⟨hx.1, hy.1, hz.1⟩, ⟨hx.2, hy.2, hz.2⟩⟩

/-- The corners of a box with a given origin and size do not depend on which way the size points. -/
theorem isCorner_ofOriginSize {size q : Vec3 ℝ} : (ofOriginSize p size).IsCorner q ↔
    (q.x = p.x ∨ q.x = p.x + size.x) ∧ (q.y = p.y ∨ q.y = p.y + size.y) ∧
      (q.z = p.z ∨ q.z = p.z + size.z) := by
  have hsorted : ∀ a b e : ℝ, (e = min a b ∨ e = max a b) ↔ (e = a ∨ e = b) := by
    intro a b e
    rcases le_total a b with h | h
    · rw [min_eq_left h, max_eq_right h]
    · rw [min_eq_right h, max_eq_left h, or_comm]
  exact and_congr (hsorted ..) (and_congr (hsorted ..) (hsorted ..))

/-- **What holds of the corners of a box holds of the box**, if it is that a sum of multiples of the
coordinates lies between two bounds. -/
theorem between_of_corners (hp : p ∈ b.points) {u v w d lo hi : ℝ}
    (h : ∀ q, b.IsCorner q →
      lo ≤ u * q.x + v * q.y + w * q.z + d ∧ u * q.x + v * q.y + w * q.z + d ≤ hi) :
    lo ≤ u * p.x + v * p.y + w * p.z + d ∧ u * p.x + v * p.y + w * p.z + d ≤ hi := by
  -- a multiple of a coordinate is least at one of the two ends, and so is the sum at a corner
  have hend : ∀ {l h x : ℝ} (u : ℝ), l ≤ x → x ≤ h → ∃ e, (e = l ∨ e = h) ∧ u * e ≤ u * x := by
    intro l h x u hl hh
    rcases le_total 0 u with hu | hu
    · exact ⟨l, .inl rfl, mul_le_mul_of_nonneg_left hl hu⟩
    · exact ⟨h, .inr rfl, mul_le_mul_of_nonpos_left hh hu⟩
  have hcorner : ∀ u v w : ℝ, ∃ q, b.IsCorner q ∧
      u * q.x + v * q.y + w * q.z ≤ u * p.x + v * p.y + w * p.z := by
    intro u v w
    obtain ⟨hlow, hhigh⟩ := mem_points.mp hp
    obtain ⟨x, hx, hux⟩ := hend u hlow.1 hhigh.1
    obtain ⟨y, hy, hvy⟩ := hend v hlow.2.1 hhigh.2.1
    obtain ⟨z, hz, hwz⟩ := hend w hlow.2.2 hhigh.2.2
    exact ⟨⟨x, y, z⟩, ⟨hx, hy, hz⟩, by linarith⟩
  constructor
  · obtain ⟨q, hq, hle⟩ := hcorner u v w
    linarith [(h q hq).1]
  · obtain ⟨q, hq, hle⟩ := hcorner (-u) (-v) (-w)
    linarith [(h q hq).2]

/-! ### Images -/

variable {m : Mat4 ℝ}

/-- A transformed box is part of another if the images of the corners lie in that one. -/
theorem transformed_le_iff_corners :
    b.transformed m ≤ c ↔ ∀ q, b.IsCorner q → m.transformPoint q ∈ c.points := by
  rw [transformed, hull_le_iff, ← List.map_cons, List.forall_mem_map]
  simp only [mem_corners]

/-- **A box that holds the images of the corners holds the images of all points.** -/
theorem transformPoint_mem_of_corners (h : ∀ q, b.IsCorner q → m.transformPoint q ∈ c.points)
    (hp : p ∈ b.points) : m.transformPoint p ∈ c.points := by
  have hcorners := fun q hq => mem_points.mp (h q hq)
  have hx := between_of_corners hp fun q hq => ⟨(hcorners q hq).1.1, (hcorners q hq).2.1⟩
  have hy := between_of_corners hp fun q hq => ⟨(hcorners q hq).1.2.1, (hcorners q hq).2.2.1⟩
  have hz := between_of_corners hp fun q hq => ⟨(hcorners q hq).1.2.2, (hcorners q hq).2.2.2⟩
  exact mem_points.mpr ⟨⟨hx.1, hy.1, hz.1⟩, ⟨hx.2, hy.2, hz.2⟩⟩

theorem transformPoint_mem_transformed (hp : p ∈ b.points) :
    m.transformPoint p ∈ (b.transformed m).points :=
  transformPoint_mem_of_corners (transformed_le_iff_corners.mp le_rfl) hp

theorem Ordered.transformed_le_iff (hb : b.Ordered) :
    b.transformed m ≤ c ↔ m.transformPoint '' b.points ⊆ c.points := by
  rw [transformed_le_iff_corners, Set.image_subset_iff]
  constructor
  · exact fun h p hp => transformPoint_mem_of_corners h hp
  · exact fun h q hq => h (hb.mem_points_of_isCorner hq)

/-! ### Smallest boxes -/

/-- The box is the smallest one that holds the given points. -/
structure IsHull (b : Box ℝ) (s : Set (Vec3 ℝ)) : Prop where
  holds : s ⊆ b.points
  least : ∀ c : Box ℝ, s ⊆ c.points → b.points ⊆ c.points

theorem isHull_of_le_iff {s : Set (Vec3 ℝ)} (h : ∀ c : Box ℝ, b ≤ c ↔ s ⊆ c.points) :
    b.IsHull s where
  holds := (h b).mp le_rfl
  least c hc := points_mono ((h c).mpr hc)

/-- **The union is the smallest box that holds both boxes.** -/
theorem Ordered.isHull_union {a : Box ℝ} (ha : a.Ordered) (hb : b.Ordered) :
    (a.union b).IsHull (a.points ∪ b.points) := by
  refine isHull_of_le_iff fun c => ?_
  have hsup : a.union b ≤ c ↔ a ≤ c ∧ b ≤ c := sup_le_iff
  rw [hsup, ha.le_iff_subset, hb.le_iff_subset, Set.union_subset_iff]

/-- **The transformed box is the smallest box that holds the image.** -/
theorem Ordered.isHull_transformed (hb : b.Ordered) (m : Mat4 ℝ) :
    (b.transformed m).IsHull (m.transformPoint '' b.points) :=
  isHull_of_le_iff fun _ => hb.transformed_le_iff

end Box

end SpatialGrammar
