/-
SpatialGrammar/Geometry/Region.lean

The part of space that tiles must stay in.
-/
import SpatialGrammar.Geometry.Box
import SpatialGrammar.Geometry.Transform

namespace SpatialGrammar

/-- A box that forgives a small excess. -/
structure Region (α : Type) where
  bounds : Box α
  deriving BEq, DecidableEq, Repr

namespace Region

variable {α : Type} [Scalar α]

/-- The total excess that is forgiven along an axis, half of it at each end. -/
def tolerance : α := Scalar.ratio 1 5

/-- The region with a corner at `origin` and the opposite one `size` away. -/
def ofOriginSize (origin size : Vec3 α) : Region α := ⟨.ofOriginSize origin size⟩

/-- Whether a point lies in the region. -/
def containsPoint (r : Region α) (p : Vec3 α) : Bool :=
  (r.bounds.inflate (tolerance * Scalar.ratio 1 2)).contains p

/-- Whether a tile of the given size lies in the region: its own origin and the corner opposite
to it are tested. -/
def containsTile (r : Region α) (world : Transform α) (size : Vec3 α) : Bool :=
  r.containsPoint world.position && r.containsPoint (world.transformPoint size)

end Region

end SpatialGrammar
