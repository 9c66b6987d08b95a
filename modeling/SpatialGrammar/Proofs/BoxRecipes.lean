/-
SpatialGrammar/Proofs/BoxRecipes.lean

What keeps the corners of a box the right way round.

A box that is made from two corners, or from an origin and a size, has them sorted, and so has
a transformed one, because all of these are hulls of points.  A union holds both of its parts.
Only the margin of an inflation may spoil the order: it may be negative, which moves opposite
sides towards each other, and nothing stops them from passing.  They do not pass just if the
box has room for the margin (`Box.ordered_inflate_iff`); a box whose sides have passed holds no
point at all (`Box.points_eq_empty_iff`).

A recipe says how a box is made by these operations (`Box.Recipe`).  The main result is about
all boxes that are made on the way: they are the right way round just if every inflated one
had room, and they are so in particular if no margin is negative
(`Box.Recipe.boxes_proper_iff`).

Everything is stated over the real numbers.
-/
import SpatialGrammar.Numeric.Binary32
import SpatialGrammar.Proofs.BoxOrder

namespace SpatialGrammar

namespace Box

variable {b : Box ℝ} {margin : ℝ}

/-! ### Boxes the right way round -/

/-- The corners are the right way round, no edge has a negative length, and the middle lies in the
box. -/
structure Proper (b : Box ℝ) : Prop where
  ordered : b.Ordered
  size_nonneg : .zero ≤ b.size
  center_mem : b.center ∈ b.points

theorem zero_le_size_iff : .zero ≤ b.size ↔ b.Ordered := by
  simp [Ordered, Vec3.le_iff, size, Vec3.zero]

theorem Ordered.center_mem (hb : b.Ordered) : b.center ∈ b.points := by
  have hmiddle : ∀ {l h : ℝ}, l ≤ h → l ≤ (l + h) * (1 / 2) ∧ (l + h) * (1 / 2) ≤ h := by
    intro l h hle
    constructor <;> linarith
  obtain ⟨hx, hy, hz⟩ := hb
  have hx := hmiddle hx
  have hy := hmiddle hy
  have hz := hmiddle hz
  rw [mem_points, Vec3.le_iff, Vec3.le_iff]
  simp only [center, Vec3.scale_x, Vec3.scale_y, Vec3.scale_z, Vec3.add_x, Vec3.add_y, Vec3.add_z,
    Scalar.ratio_real, Nat.cast_one, Nat.cast_ofNat]
  exact ⟨⟨hx.1, hy.1, hz.1⟩, hx.2, hy.2, hz.2⟩

theorem proper_iff_ordered : b.Proper ↔ b.Ordered :=
  ⟨Proper.ordered, fun h => ⟨h, zero_le_size_iff.mpr h, h.center_mem⟩⟩

/-- A box the wrong way round holds nothing. -/
theorem points_eq_empty_iff : b.points = ∅ ↔ ¬ b.Ordered := by
  rw [points_eq, Set.Icc_eq_empty_iff, Ordered]

/-! ### Margins -/

/-- No edge is shorter than what the sides at its two ends take from it when each of them moves
outward by `margin`, which is inward if that is negative. -/
def HasRoom (b : Box ℝ) (margin : ℝ) : Prop :=
  -(margin + margin) ≤ b.size.x ∧ -(margin + margin) ≤ b.size.y ∧ -(margin + margin) ≤ b.size.z

/-- **Opposite sides do not pass each other just if the box has room.** -/
theorem ordered_inflate_iff : (b.inflate margin).Ordered ↔ b.HasRoom margin := by
  have hedge : ∀ l h : ℝ, l - margin ≤ h + margin ↔ -(margin + margin) ≤ h - l := by
    intro l h
    constructor <;> intro hle <;> linarith
  exact and_congr (hedge ..) (and_congr (hedge ..) (hedge ..))

theorem Ordered.hasRoom (hb : b.Ordered) (hmargin : 0 ≤ margin) : b.HasRoom margin := by
  obtain ⟨hx, hy, hz⟩ := zero_le_size_iff.mpr hb
  have hle : -(margin + margin) ≤ 0 := by linarith
  exact ⟨hle.trans hx, hle.trans hy, hle.trans hz⟩

/-! ### Recipes -/

/-- A way to make a box. -/
inductive Recipe (α : Type) where
  | corners (a b : Vec3 α)
  | originSize (origin size : Vec3 α)
  | union (r s : Recipe α)
  | inflate (r : Recipe α) (margin : α)
  | transformed (r : Recipe α) (m : Mat4 α)
  deriving DecidableEq, Repr

namespace Recipe

section

variable {α : Type} [Scalar α]

/-- The box that is made. -/
def box : Recipe α → Box α
  | corners a b => ofCorners a b
  | originSize origin size => ofOriginSize origin size
  | union r s => r.box.union s.box
  | inflate r margin => r.box.inflate margin
  | transformed r m => r.box.transformed m

/-- All boxes that are made on the way, the last one first. -/
def boxes : Recipe α → List (Box α)
  | corners a b => [(corners a b).box]
  | originSize origin size => [(originSize origin size).box]
  | union r s => (union r s).box :: (r.boxes ++ s.boxes)
  | inflate r margin => (inflate r margin).box :: r.boxes
  | transformed r m => (transformed r m).box :: r.boxes

/-- The boxes that are inflated on the way, each with its margin. -/
def inflations : Recipe α → List (Box α × α)
  | corners _ _ | originSize _ _ => []
  | union r s => r.inflations ++ s.inflations
  | inflate r margin => (r.box, margin) :: r.inflations
  | transformed r _ => r.inflations

theorem box_mem_boxes (r : Recipe α) : r.box ∈ r.boxes := by
  cases r <;> exact List.mem_cons_self

theorem inflate_mem_boxes {r : Recipe α} {x : Box α × α} (hx : x ∈ r.inflations) :
    x.1.inflate x.2 ∈ r.boxes := by
  induction r with
  | corners | originSize => cases hx
  | union r s ihr ihs =>
    apply List.mem_cons_of_mem
    rcases List.mem_append.mp hx with hx | hx
    · exact List.mem_append_left _ (ihr hx)
    · exact List.mem_append_right _ (ihs hx)
  | inflate r margin ih =>
    rcases List.mem_cons.mp hx with rfl | hx
    · exact box_mem_boxes (r.inflate margin)
    · exact List.mem_cons_of_mem _ (ih hx)
  | transformed r m ih => exact List.mem_cons_of_mem _ (ih hx)

end

/-- All boxes that are made are the right way round if each inflated one has room, provided that it
is so itself. -/
theorem ordered_of_hasRoom {r : Recipe ℝ}
    (hroom : ∀ x ∈ r.inflations, x.1.Ordered → x.1.HasRoom x.2) : ∀ b ∈ r.boxes, b.Ordered := by
  induction r with
  | corners a b =>
    rw [boxes, List.forall_mem_singleton]
    exact ordered_hull a [b]
  | originSize origin size =>
    rw [boxes, List.forall_mem_singleton]
    exact ordered_hull origin [origin.add size]
  | union r s ihr ihs =>
    obtain ⟨hr, hs⟩ := List.forall_mem_append.mp hroom
    have hpart := ihr hr r.box r.box_mem_boxes
    rw [boxes, List.forall_mem_cons, List.forall_mem_append]
    exact ⟨hpart.mono le_sup_left, ihr hr, ihs hs⟩
  | inflate r margin ih =>
    obtain ⟨hlast, hr⟩ := List.forall_mem_cons.mp hroom
    have hpart := ih hr r.box r.box_mem_boxes
    rw [boxes, List.forall_mem_cons]
    exact ⟨ordered_inflate_iff.mpr (hlast hpart), ih hr⟩
  | transformed r m ih =>
    rw [boxes, List.forall_mem_cons]
    exact ⟨ordered_hull _ _, ih hroom⟩

/-- **All boxes made on the way are the right way round just if every inflated one has room for its
margin**, and so they are if no margin is negative. -/
theorem boxes_proper_iff (r : Recipe ℝ) :
    ((∀ b ∈ r.boxes, b.Proper) ↔ ∀ x ∈ r.inflations, x.1.HasRoom x.2) ∧
      ((∀ x ∈ r.inflations, 0 ≤ x.2) → ∀ b ∈ r.boxes, b.Proper) := by
  simp only [proper_iff_ordered]
  refine ⟨⟨?_, ?_⟩, ?_⟩
  · intro hordered x hx
    exact ordered_inflate_iff.mp (hordered _ (inflate_mem_boxes hx))
  · intro hroom
    exact ordered_of_hasRoom fun x hx _ => hroom x hx
  · intro hmargin
    exact ordered_of_hasRoom fun x hx hb => hb.hasRoom (hmargin x hx)

/-- A unit cube that is inflated, turned over and flattened, joined with the box between two
corners, and then inset. -/
noncomputable def parcel (inset : ℝ) : Recipe ℝ :=
  .inflate
    (.union
      (.transformed (.inflate (.originSize .one ⟨-1, -1, -1⟩) 1) (.scaling ⟨-1, 1, 0⟩))
      (.corners ⟨1, 0, 1⟩ ⟨-1, 1, -1⟩))
    (-inset)

theorem inflations_parcel (inset : ℝ) : (parcel inset).inflations =
    [(⟨⟨-2, -1, -1⟩, ⟨1, 2, 1⟩⟩, -inset), (⟨.zero, .one⟩, 1)] := by
  have hcube : ofOriginSize (.one : Vec3 ℝ) ⟨-1, -1, -1⟩ = ⟨.zero, .one⟩ := by
    norm_num [ofOriginSize, ofCorners, hull, Box.union, point, Vec3.zipWith, Vec3.add, Vec3.zero,
      Vec3.one]
  have hflat : ((⟨.zero, .one⟩ : Box ℝ).inflate 1).transformed (.scaling ⟨-1, 1, 0⟩) =
      ⟨⟨-2, -1, 0⟩, ⟨1, 2, 0⟩⟩ := by
    norm_num [Box.inflate, Box.transformed, hull, Box.union, point, otherCorners, Mat4.scaling,
      Mat4.transformPoint, Mat4.transformDirection, Vec3.zipWith, Vec3.add, Vec3.sub, Vec3.zero,
      Vec3.one]
  have hjoined : (⟨⟨-2, -1, 0⟩, ⟨1, 2, 0⟩⟩ : Box ℝ).union (ofCorners ⟨1, 0, 1⟩ ⟨-1, 1, -1⟩) =
      ⟨⟨-2, -1, -1⟩, ⟨1, 2, 1⟩⟩ := by
    norm_num [ofCorners, hull, Box.union, point, Vec3.zipWith]
  simp only [parcel, inflations, box, hcube, hflat, hjoined, List.append_nil]

/-- The shortest edge has length two, so an inset of one leaves nothing of it and does no harm yet;
an inset of less than nothing never does. -/
theorem boxes_proper_iff_parcel :
    (∀ b ∈ (parcel 1).boxes, b.Proper) ∧ (∀ x ∈ (parcel (-1)).inflations, 0 ≤ x.2) ∧
      ∀ b ∈ (parcel (-1)).boxes, b.Proper := by
  have hmargins : ∀ x ∈ (parcel (-1)).inflations, 0 ≤ x.2 := by
    simp [inflations_parcel]
  refine ⟨(boxes_proper_iff _).1.mpr ?_, hmargins, (boxes_proper_iff _).2 hmargins⟩
  rw [inflations_parcel]
  norm_num [HasRoom, size, Vec3.zero, Vec3.one]

/-- **Nothing stops the sides of a box from passing each other**: those of the unit cube have passed
when each has been moved inward by one. -/
theorem not_proper_unitCube :
    ¬ (∀ b ∈ (inflate (corners .zero .one) (-1) : Recipe ℝ).boxes, b.Proper) ∧
      (inflate (corners .zero .one) (-1) : Recipe ℝ).box.points = ∅ ∧
      (inflate (corners .zero .one) (-1) : Recipe Float32).box = ⟨.one, .zero⟩ := by
  have hroom : ¬ (ofCorners (.zero : Vec3 ℝ) .one).HasRoom (-1) := by
    norm_num [HasRoom, size, ofCorners, hull, Box.union, point, Vec3.zipWith, Vec3.zero, Vec3.one]
  have hordered := mt ordered_inflate_iff.mp hroom
  refine ⟨?_, points_eq_empty_iff.mpr hordered, by decide +kernel⟩
  intro hproper
  exact hordered (hproper _ (box_mem_boxes _)).ordered

end Recipe

end Box

end SpatialGrammar
