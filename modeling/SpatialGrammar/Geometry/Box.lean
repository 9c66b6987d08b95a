/-
SpatialGrammar/Geometry/Box.lean

Boxes along the axes.
-/
import SpatialGrammar.Geometry.Mat4

namespace SpatialGrammar

/-- The points between two corners; on each axis the low corner is meant to be no greater than
the high one. -/
structure Box (α : Type) where
  low : Vec3 α
  high : Vec3 α
  deriving BEq, DecidableEq, Repr

namespace Box

variable {α : Type} [Scalar α]

/-- The smallest box that holds both boxes. -/
def union (a b : Box α) : Box α :=
  ⟨a.low.zipWith min b.low, a.high.zipWith max b.high⟩

/-- The box of a single point. -/
def point (p : Vec3 α) : Box α := ⟨p, p⟩

/-- The smallest box that holds a point and the points of a list. -/
def hull (p : Vec3 α) (ps : List (Vec3 α)) : Box α :=
  ps.foldl (fun b q => b.union (point q)) (point p)

/-- The box with two given opposite corners. -/
def ofCorners (a b : Vec3 α) : Box α := hull a [b]

/-- The box with a corner at `origin` and the opposite one `size` away. -/
def ofOriginSize (origin size : Vec3 α) : Box α := ofCorners origin (origin.add size)

/-- The middle. -/
def center (b : Box α) : Vec3 α := (b.low.add b.high).scale (Scalar.ratio 1 2)

/-- The lengths of the edges. -/
def size (b : Box α) : Vec3 α := b.high.sub b.low

/-- Whether a point lies in the box, its surface included. -/
def contains (b : Box α) (p : Vec3 α) : Bool :=
  (b.low.x ≤ p.x && p.x ≤ b.high.x) && (b.low.y ≤ p.y && p.y ≤ b.high.y) &&
    (b.low.z ≤ p.z && p.z ≤ b.high.z)

/-- The box moved outward by `margin` on every side. -/
def inflate (b : Box α) (margin : α) : Box α :=
  let step : Vec3 α := ⟨margin, margin, margin⟩
  ⟨b.low.sub step, b.high.add step⟩

/-- The corners other than the low one. -/
def otherCorners (b : Box α) : List (Vec3 α) :=
  [⟨b.low.x, b.low.y, b.high.z⟩, ⟨b.low.x, b.high.y, b.low.z⟩, ⟨b.low.x, b.high.y, b.high.z⟩,
   ⟨b.high.x, b.low.y, b.low.z⟩, ⟨b.high.x, b.low.y, b.high.z⟩, ⟨b.high.x, b.high.y, b.low.z⟩,
   b.high]

/-- The smallest box that holds the images of the corners. -/
def transformed (b : Box α) (m : Mat4 α) : Box α :=
  hull (m.transformPoint b.low) (b.otherCorners.map m.transformPoint)

/-- The union of the boxes of a list, from the left. -/
def unionAll? : List (Box α) → Option (Box α)
  | [] => none
  | b :: bs => some (bs.foldl union b)

end Box

end SpatialGrammar
