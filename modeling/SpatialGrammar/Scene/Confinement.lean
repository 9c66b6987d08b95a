/-
SpatialGrammar/Scene/Confinement.lean

Keeping the tiles of a scene in a region.

A tile violates the region by not lying in it, and a generator by one of its tiles;
anything else has no geometry to violate it with.  A scene is a world for a run, and
the region gives the test for its entities.
-/
import SpatialGrammar.Geometry.Region
import SpatialGrammar.Scene.Method
import SpatialGrammar.Scene.Spawn

namespace SpatialGrammar.Scene

variable {α ρ : Type} [Scalar α]

/-- Whether an entity is a tile that does not lie in the region. -/
def tileOutside (r : Region α) (s : Scene α) (id : EntityId) : Bool :=
  match (s.get? id).map Entity.kind, s.world? id with
  | some (.tile shape), some world => !r.containsTile world shape.size
  | _, _ => false

/-- Whether an entity violates the region. -/
def violates (r : Region α) (s : Scene α) (id : EntityId) : Bool :=
  match (s.get? id).map Entity.kind with
  | some (.tile _) => tileOutside r s id
  | some (.generator tiles _) => tiles.any (tileOutside r s)
  | _ => false

instance [Numeral α] [RandomSource ρ α] : World (Scene α) ρ where
  spawn request s source :=
    let ((id, _), s, source) := s.spawn request source
    (id, s, source)
  perform id call s := s.dispatch id call
  discard id s := s.remove id
  settle id s := s.settle id

end SpatialGrammar.Scene
