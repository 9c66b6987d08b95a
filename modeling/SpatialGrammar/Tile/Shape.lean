/-
SpatialGrammar/Tile/Shape.lean

The geometry of a tile: its size, the identifiers of its faces, and the spans of its
upright faces.

Two tiles can be joined at faces with one identifier.  A span says from where to
where along its lower edge an upright face takes a neighbour.
-/
import SpatialGrammar.Geometry.Transform
import SpatialGrammar.Tile.Face

namespace SpatialGrammar

/-- The identifiers of the six faces; zero means that the face takes no neighbour. -/
structure FaceIds where
  xPos : Nat
  zNeg : Nat
  xNeg : Nat
  zPos : Nat
  yPos : Nat
  yNeg : Nat
  deriving DecidableEq, Repr

namespace FaceIds

/-- No face takes a neighbour. -/
def none : FaceIds := ⟨0, 0, 0, 0, 0, 0⟩

/-- The identifier of a face. -/
def get (ids : FaceIds) : Face → Nat
  | .xPos => ids.xPos | .zNeg => ids.zNeg | .xNeg => ids.xNeg | .zPos => ids.zPos
  | .yPos => ids.yPos | .yNeg => ids.yNeg

/-- Whether a face of one tile can be joined to a face of another: their identifiers are the same
and not zero, and they are not both tops or both bottoms. -/
def compatible (anchor : FaceIds) (anchorFace : Face) (moving : FaceIds) (movingFace : Face) :
    Bool :=
  anchor.get anchorFace ≠ 0 && anchor.get anchorFace = moving.get movingFace &&
    !(anchorFace.isVertical && anchorFace = movingFace)

end FaceIds

/-- A part of an edge. -/
structure FaceSpan (α : Type) where
  first : α
  last : α
  deriving BEq, DecidableEq, Repr

/-- The spans of the four upright faces. -/
structure FaceSpans (α : Type) where
  xPos : FaceSpan α
  zNeg : FaceSpan α
  xNeg : FaceSpan α
  zPos : FaceSpan α
  deriving BEq, DecidableEq, Repr

namespace FaceSpans

variable {α : Type}

/-- Every span is a point at the beginning of its edge. -/
def zero [Scalar α] : FaceSpans α := ⟨⟨0, 0⟩, ⟨0, 0⟩, ⟨0, 0⟩, ⟨0, 0⟩⟩

/-- The span of a face; the top and the bottom have none. -/
def get? (spans : FaceSpans α) : Face → Option (FaceSpan α)
  | .xPos => some spans.xPos
  | .zNeg => some spans.zNeg
  | .xNeg => some spans.xNeg
  | .zPos => some spans.zPos
  | .yPos | .yNeg => none

end FaceSpans

/-- The geometry of a tile. -/
structure TileShape (α : Type) where
  size : Vec3 α
  faces : FaceIds
  spans : FaceSpans α
  deriving BEq, DecidableEq, Repr

namespace TileShape

variable {α : Type} [Scalar α]

/-- The point of a face at the end of its span that `along` picks. -/
def pivotAt (t : TileShape α) (along : FaceSpan α → α) : Face → Vec3 α
  | .xPos => ⟨t.size.x, 0, along t.spans.xPos⟩
  | .zNeg => ⟨along t.spans.zNeg, 0, 0⟩
  | .xNeg => ⟨0, 0, along t.spans.xNeg⟩
  | .zPos => ⟨along t.spans.zPos, 0, t.size.z⟩
  | .yPos => ⟨0, t.size.y, 0⟩
  | .yNeg => .zero

/-- The point of a face at the beginning of its span. -/
def pivot (t : TileShape α) (face : Face) : Vec3 α := t.pivotAt FaceSpan.first face

/-- The point of a face at the end of its span. -/
def revertedPivot (t : TileShape α) (face : Face) : Vec3 α := t.pivotAt FaceSpan.last face

/-- Whether a join of two upright faces reverses the neighbour along the edge, so that the beginning
of its span meets the end of the other one. -/
def reverses : Face → Face → Bool
  | .xPos, moving => moving = .xPos
  | .zNeg, moving => moving = .zNeg
  | .xNeg, moving => moving = .xNeg || moving = .zPos
  | .zPos, moving => moving = .zPos || moving = .xNeg
  | .yPos, _ | .yNeg, _ => false

/-- The point of the anchor's face that the neighbour's reference point is put on. -/
def anchorPivot (t : TileShape α) (anchorFace movingFace : Face) : Vec3 α :=
  if reverses anchorFace movingFace then t.revertedPivot anchorFace else t.pivot anchorFace

/-- The point of a placed tile that is put on the anchor.  Stacked tiles are aligned by their
origin, whatever way they are turned. -/
def referencePoint (t : TileShape α) (placed : Transform α) (face : Face) : Vec3 α :=
  match face with
  | .yPos => placed.position.add ⟨0, t.size.y, 0⟩
  | .yNeg => placed.position
  | .xPos | .zNeg | .xNeg | .zPos => placed.transformPoint (t.pivot face)

end TileShape

end SpatialGrammar
