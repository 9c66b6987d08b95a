/-
SpatialGrammar/Tile/Placement.lean

Putting a tile on a face of another one.

The moving tile is turned so that its face looks toward the anchor's face, and then
shifted so that its reference point lies on the anchor's pivot.
-/
import SpatialGrammar.Decimal.Integer
import SpatialGrammar.Tile.Shape

namespace SpatialGrammar

/-- A tile and where it stands. -/
structure StandingTile (α : Type) where
  shape : TileShape α
  pose : Transform α
  deriving BEq, DecidableEq, Repr

/-- The faces of a join that is refused, with their identifiers. -/
structure PlacementError where
  anchorFace : Face
  anchorId : Nat
  movingFace : Face
  movingId : Nat
  deriving DecidableEq, Repr

/-- The wording of a refused join. -/
def PlacementError.message (e : PlacementError) : String :=
  "face " ++ e.anchorFace.label ++ " (id " ++ Decimal.natText e.anchorId ++ ") cannot join face " ++
    e.movingFace.label ++ " (id " ++ Decimal.natText e.movingId ++ ")"

namespace Transform

variable {α : Type} [Scalar α]

/-- How far, in degrees, an angle may be from a quarter turn to count as one. -/
def yawTolerance : α := Scalar.ratio 1 100

/-- The quarter turn that the placement makes about the upward axis, in degrees; a placement that
makes none counts as not turned. -/
def quantizedYaw (t : Transform α) : α :=
  let yaw := t.yaw
  match [0, 1, 2, 3, 4].find? fun turns : Nat =>
      Scalar.abs (yaw - ((90 * turns : Nat) : α)) ≤ yawTolerance with
  | none => 0
  | some turns => if turns = 4 then 0 else ((90 * turns : Nat) : α)

end Transform

namespace StandingTile

variable {α : Type} [Scalar α]

/-- Where the moving tile stands after its face has been put on the anchor's face. -/
def align (anchor : StandingTile α) (anchorFace : Face) (moving : StandingTile α)
    (movingFace : Face) (mode : AxisMode) : Transform α :=
  let yaw := anchor.pose.quantizedYaw + mode.turn movingFace anchorFace.opposite
  let turned : Transform α :=
    { moving.pose with rotation := (moving.pose.rotation.multiply (.ofYaw yaw)).normalize }
  let target := anchor.pose.transformPoint (anchor.shape.anchorPivot anchorFace movingFace)
  let related := moving.shape.referencePoint turned movingFace
  { turned with position := turned.position.add (target.sub related) }

/-- Where the moving tile stands after its face has been put on the anchor's face, if the faces can
be joined. -/
def place (anchor : StandingTile α) (anchorFace : Face) (moving : StandingTile α)
    (movingFace : Face) (mode : AxisMode) : Except PlacementError (Transform α) :=
  if anchor.shape.faces.compatible anchorFace moving.shape.faces movingFace then
    .ok (anchor.align anchorFace moving movingFace mode)
  else
    .error ⟨anchorFace, anchor.shape.faces.get anchorFace, movingFace,
      moving.shape.faces.get movingFace⟩

end StandingTile

end SpatialGrammar
