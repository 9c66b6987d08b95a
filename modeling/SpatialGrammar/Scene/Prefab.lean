/-
SpatialGrammar/Scene/Prefab.lean

Prefabs: the templates from which objects are made.
-/
import SpatialGrammar.Names.Index
import SpatialGrammar.Tile.Chain

namespace SpatialGrammar

/-- A template for a chain of tiles. -/
structure GeneratorPrefab where
  params : ChainParams
  /-- The names of the tile prefabs to choose from; the parameters mean their places. -/
  tiles : List String
  deriving DecidableEq, Repr

/-- What is made from a prefab. -/
inductive PrefabKind (α : Type) where
  /-- Something without geometry. -/
  | marker
  /-- A tile. -/
  | tile (shape : TileShape α)
  /-- A chain of tiles, grown anew each time. -/
  | generator (g : GeneratorPrefab)
  deriving BEq, DecidableEq, Repr

/-- A template with its name. -/
structure Prefab (α : Type) where
  name : String
  kind : PrefabKind α
  deriving BEq, DecidableEq, Repr

/-- Prefabs in the order in which they were declared, with look-up by name. -/
structure PrefabCatalog (α : Type) where
  prefabs : List (Prefab α)
  byName : Index (Prefab α)

namespace PrefabCatalog

variable {α : Type}

/-- The catalogue of a list of prefabs. -/
def ofList (prefabs : List (Prefab α)) : PrefabCatalog α :=
  ⟨prefabs, .ofList (prefabs.map fun p => (p.name, p))⟩

/-- The prefab with the given name. -/
def get? (c : PrefabCatalog α) (name : String) : Option (Prefab α) := c.byName.get? name

/-- The tile with the given name, if the prefab of that name is a tile. -/
def tile? (c : PrefabCatalog α) (name : String) : Option (TileShape α) :=
  match c.get? name with
  | some ⟨_, .tile shape⟩ => some shape
  | _ => none

end PrefabCatalog

end SpatialGrammar
