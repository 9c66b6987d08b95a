/-
SpatialGrammar/Scene/Spawn.lean

Making the entities of objects.

Everything that one run makes hangs below a holder, which is made along with the
first entity of the run.  An object without a linked prefab becomes a marker.  A
generator grows its chain at once; the tiles become its children.
-/
import SpatialGrammar.Derivation.World
import SpatialGrammar.Scene.Hierarchy

namespace SpatialGrammar.Scene

variable {α : Type} [Scalar α]

/-- Begins a run, which has no holder yet. -/
def beginRun (s : Scene α) : Scene α := { s with holder := none }

/-- Ends a run and gives its holder, if it has one. -/
def finishRun (s : Scene α) : Option EntityId × Scene α := (s.holder, { s with holder := none })

/-- The holder of the present run; it is made where there is none, and named for the object that
asks first. -/
def ensureHolder (s : Scene α) (firstName : String) : EntityId × Scene α :=
  match s.holder.filter fun h => s.contains h with
  | some h => (h, s)
  | none =>
    let e := Entity.new (firstName ++ " Holder") none EntityKind.holder
    let (h, s) := s.insert { e with pose := .ofPosition s.spawnOrigin }
    (h, { s with holder := some h })

/-- Enters the tiles of a chain as children of a generator; the handles are given in order. -/
def insertTiles (names : Array String) (shapes : Array (TileShape α)) (generator : EntityId) :
    List (ChainTile α) → Scene α → List EntityId × Scene α
  | [], s => ([], s)
  | t :: ts, s =>
    match names[t.prefab]?, shapes[t.prefab]? with
    | some name, some shape =>
      let e := Entity.new name (some name) (EntityKind.tile shape)
      let (id, s) := s.insertUnder { e with pose := t.pose } generator
      let (ids, s) := insertTiles names shapes generator ts s
      (id :: ids, s)
    | _, _ => insertTiles names shapes generator ts s

/-- The shapes of the tiles that a generator lists, if all of them are tiles. -/
def shapes? (s : Scene α) (g : GeneratorPrefab) : Option (List (TileShape α)) :=
  g.tiles.mapM s.catalog.tile?

variable {ρ : Type} [RandomSource ρ α]

/-- Grows the chain of a generator.  Nothing grows where a listed prefab is no tile or where the
parameters do not fit. -/
def fillGenerator (id : EntityId) (g : GeneratorPrefab) (s : Scene α) (source : ρ) : Scene α × ρ :=
  match s.shapes? g with
  | none => (s, source)
  | some shapes =>
    match Chain.generate shapes.toArray g.params source with
    | (.error _, source) => (s, source)
    | (.ok chain, source) =>
      let (tiles, s) := insertTiles g.tiles.toArray shapes.toArray id chain.tiles s
      (s.modify id fun e => { e with kind := .generator tiles chain.height }, source)

/-- The box around the tiles of a generator, in its own frame. -/
def generatedBounds? (s : Scene α) (generator : EntityId) : Option (Box α) :=
  match (s.get? generator).map Entity.kind with
  | some (.generator tiles _) =>
    Box.unionAll? (tiles.filterMap fun t =>
      match s.get? t with
      | some e =>
        match e.kind with
        | .tile shape => some (Chain.tileBox shape e.pose)
        | _ => none
      | none => none)
  | _ => none

/-- The prefab linked to an object. -/
def prefabFor (s : Scene α) (request : SpawnRequest) (source : ρ) : Option (Prefab α) × ρ :=
  let (name, source) := s.links.resolve request.name request.args source
  (name.bind s.catalog.get?, source)

/-- Makes the entity of an object and tells its size, if it has one. -/
def spawn (request : SpawnRequest) (s : Scene α) (source : ρ) :
    (EntityId × Option (Vec3 α)) × Scene α × ρ :=
  let (holder, s) := s.ensureHolder request.name
  match s.prefabFor request source with
  | (none, source) =>
    let (id, s) := s.insertUnder (.new request.name none .marker) holder
    ((id, none), s, source)
  | (some p, source) =>
    match p.kind with
    | .marker =>
      let (id, s) := s.insertUnder (.new request.name (some p.name) .marker) holder
      ((id, none), s, source)
    | .tile shape =>
      let (id, s) := s.insertUnder (.new request.name (some p.name) (.tile shape)) holder
      ((id, some shape.size), s, source)
    | .generator g =>
      let (id, s) := s.insertUnder (.new request.name (some p.name) (.generator [] 0)) holder
      let (s, source) := fillGenerator id g s source
      ((id, (s.generatedBounds? id).map Box.size), s, source)

/-- Tells an entity that its run is over. -/
def settle (s : Scene α) (id : EntityId) : Scene α :=
  s.modify id fun e => { e with settled := true }

end SpatialGrammar.Scene
