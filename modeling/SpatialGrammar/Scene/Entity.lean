/-
SpatialGrammar/Scene/Entity.lean

Entities of a scene.
-/
import SpatialGrammar.Names.Handle
import SpatialGrammar.Tile.Chain

namespace SpatialGrammar

/-- What an entity is. -/
inductive EntityKind (α : Type) where
  /-- The root of everything that one run makes. -/
  | holder
  /-- Something without geometry. -/
  | marker
  /-- A tile. -/
  | tile (shape : TileShape α)
  /-- Something whose geometry lies in the tiles below it, which are listed in the order of the
  chain, together with the height of the structure. -/
  | generator (tiles : List EntityId) (height : α)
  deriving BEq, DecidableEq, Repr

/-- A node of the hierarchy. -/
structure Entity (α : Type) where
  /-- The name of the object it was made for, or of the holder. -/
  name : String
  /-- The name of the prefab it was made from; holders and stand-ins have none. -/
  prefabName : Option String
  kind : EntityKind α
  /-- Where it stands, in the frame of its parent. -/
  pose : Transform α
  parent : Option EntityId
  /-- Its children in the order in which they were attached. -/
  children : List EntityId
  /-- Whether it has been told of the end of its run. -/
  settled : Bool
  deriving BEq, DecidableEq, Repr

/-- An entity without relations, at the origin. -/
def Entity.new {α : Type} [Scalar α] (name : String) (prefabName : Option String)
    (kind : EntityKind α) : Entity α :=
  ⟨name, prefabName, kind, .identity, none, [], false⟩

end SpatialGrammar
