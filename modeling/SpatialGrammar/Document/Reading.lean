/-
SpatialGrammar/Document/Reading.lean

Documents from JSON values.

Every part but a prefab is a record in the sense of `Json.fields?`.  A prefab is
always an object: its kind decides which of its other members count, so all of them
are kept until the kind is known.
-/
import SpatialGrammar.Document.Basic
import SpatialGrammar.Json.Fields

namespace SpatialGrammar

open Json

/-- Three numbers. -/
def Vec3.ofJson? (v : Json) : Option (Vec3 Float32) :=
  match list? single? v with
  | some [x, y, z] => some ⟨x, y, z⟩
  | _ => none

/-! ### Tiles -/

/-- The identifiers of faces; one that is not given is zero. -/
def FaceIds.ofJson? (v : Json) : Option FaceIds := do
  let fields ← fields? ["x_pos", "z_neg", "x_neg", "z_pos", "y_pos", "y_neg"] v
  return {
    xPos := ← fields.withDefault "x_pos" (nat? 32) 0
    zNeg := ← fields.withDefault "z_neg" (nat? 32) 0
    xNeg := ← fields.withDefault "x_neg" (nat? 32) 0
    zPos := ← fields.withDefault "z_pos" (nat? 32) 0
    yPos := ← fields.withDefault "y_pos" (nat? 32) 0
    yNeg := ← fields.withDefault "y_neg" (nat? 32) 0 }

/-- A span. -/
def FaceSpan.ofJson? (v : Json) : Option (FaceSpan Float32) := do
  let fields ← fields? ["start", "end"] v
  return { first := ← fields.required "start" single?, last := ← fields.required "end" single? }

/-- The spans of faces; one that is not given is a point. -/
def FaceSpans.ofJson? (v : Json) : Option (FaceSpans Float32) := do
  let fields ← fields? ["x_pos", "z_neg", "x_neg", "z_pos"] v
  return {
    xPos := ← fields.withDefault "x_pos" FaceSpan.ofJson? zero.xPos
    zNeg := ← fields.withDefault "z_neg" FaceSpan.ofJson? zero.zNeg
    xNeg := ← fields.withDefault "x_neg" FaceSpan.ofJson? zero.xNeg
    zPos := ← fields.withDefault "z_pos" FaceSpan.ofJson? zero.zPos }

/-- The fields of a tile. -/
def TileShape.fieldNames : List String := ["size", "faces", "spans"]

/-- A tile from its fields. -/
def TileShape.ofFields? (fields : Fields) : Option (TileShape Float32) := do
  return {
    size := ← fields.required "size" Vec3.ofJson?
    faces := ← fields.withDefault "faces" FaceIds.ofJson? .none
    spans := ← fields.withDefault "spans" FaceSpans.ofJson? .zero }

/-- A tile. -/
def TileShape.ofJson? (v : Json) : Option (TileShape Float32) :=
  (fields? fieldNames v).bind ofFields?

/-! ### Generators -/

/-- A mode by its name, which may also be the name of the single, empty member of an object. -/
def AxisMode.ofJson? : Json → Option AxisMode
  | .string (some name) => ofLabel? name
  | .object [(some name, .null)] => ofLabel? name
  | .object [(some name, .object [])] => ofLabel? name
  | _ => none

/-- The fields of the parameters of a chain. -/
def ChainParams.fieldNames : List String :=
  ["count", "axis_mode", "first", "last", "allow_repeats", "random_start_rotation"]

/-- The parameters of a chain from their fields. -/
def ChainParams.ofFields? (fields : Fields) : Option ChainParams := do
  return {
    count := ← fields.withDefault "count" (nat? 64) default.count
    axisMode := ← fields.withDefault "axis_mode" AxisMode.ofJson? default.axisMode
    first := ← fields.withDefault "first" (optional? (nat? 64)) default.first
    last := ← fields.withDefault "last" (optional? (nat? 64)) default.last
    allowRepeats := ← fields.withDefault "allow_repeats" bool? default.allowRepeats
    randomStartRotation :=
      ← fields.withDefault "random_start_rotation" bool? default.randomStartRotation }

/-- The parameters of a chain. -/
def ChainParams.ofJson? (v : Json) : Option ChainParams := (fields? fieldNames v).bind ofFields?

/-- A generator from its fields. -/
def GeneratorPrefab.ofFields? (fields : Fields) : Option GeneratorPrefab := do
  return {
    params := ← ChainParams.ofFields? fields
    tiles := ← fields.required "tiles" (list? text?) }

/-! ### Prefabs -/

/-- What a prefab may be, before its other members are read. -/
inductive PrefabTag where
  | marker | tile | generator
  deriving DecidableEq, Repr

/-- A tag by its name or by its number. -/
def PrefabTag.ofJson? (v : Json) : Option PrefabTag :=
  match text? v, nat? 64 v with
  | some "marker", _ | _, some 0 => some .marker
  | some "tile", _ | _, some 1 => some .tile
  | some "generator", _ | _, some 2 => some .generator
  | _, _ => none

/-- What a prefab is, from its tag and its other members. -/
def PrefabKind.ofMembers? (members : Fields) : PrefabTag → Option (PrefabKind Float32)
  | .marker => some .marker
  | .tile => ((members.select? TileShape.fieldNames).bind TileShape.ofFields?).map .tile
  | .generator =>
    ((members.select? ("tiles" :: ChainParams.fieldNames)).bind GeneratorPrefab.ofFields?).map
      .generator

/-- How deep the members of a prefab may nest: a document may have fewer than 128 levels, and three
of them are above the members. -/
def Prefab.memberDepth : Nat := 124

/-- A prefab. -/
def Prefab.ofJson? : Json → Option (Prefab Float32)
  | .object members => do
    let members ← namedMembers? members
    let own ← members.select? ["name", "kind"]
    let name ← own.required "name" text?
    let kept := members.filter fun m => m.1 ≠ "name"
    if kept.all fun m => isKeepable memberDepth m.2 then
      let tag ← own.required "kind" PrefabTag.ofJson?
      let kind ← PrefabKind.ofMembers? kept tag
      return ⟨name, kind⟩
    else none
  | _ => none

/-! ### Documents -/

/-- The settings of runs. -/
def EngineSettings.ofJson? (v : Json) : Option EngineSettings := do
  let fields ← fields? ["iterations", "endless", "relaxed_recovery", "max_recovery_attempts"] v
  return {
    iterations := ← fields.withDefault "iterations" (nat? 32) default.iterations
    endless := ← fields.withDefault "endless" bool? default.endless
    relaxedRecovery := ← fields.withDefault "relaxed_recovery" bool? default.relaxedRecovery
    maxRecoveryAttempts :=
      ← fields.withDefault "max_recovery_attempts" (nat? 32) default.maxRecoveryAttempts }

/-- An alternative of a rule. -/
def Alternative.ofJson? (v : Json) : Option (Alternative Float32) := do
  let fields ← fields? ["probability", "template"] v
  return {
    probability := ← fields.required "probability" single?
    template := ← fields.required "template" text? }

/-- A rule. -/
def Rule.ofJson? (v : Json) : Option (Rule Float32) := do
  let fields ← fields? ["input", "outputs"] v
  return {
    input := ← fields.required "input" text?
    outputs := ← fields.required "outputs" (list? Alternative.ofJson?) }

/-- A link. -/
def Link.ofJson? (v : Json) : Option Link := do
  let fields ← fields? ["symbol", "prefabs"] v
  return {
    symbol := ← fields.required "symbol" text?
    prefabs := ← fields.required "prefabs" (list? text?) }

/-- A space. -/
def SpaceConfig.ofJson? (v : Json) : Option (SpaceConfig Float32) := do
  let fields ← fields? ["origin", "size", "spawn_start", "relaxed"] v
  return {
    origin := ← fields.required "origin" Vec3.ofJson?
    size := ← fields.required "size" Vec3.ofJson?
    spawnStart := ← fields.withDefault "spawn_start" Vec3.ofJson? .zero
    relaxed := ← fields.withDefault "relaxed" bool? false }

/-- A box to scatter runs into. -/
def ScatterArea.ofJson? (v : Json) : Option (ScatterArea Float32) := do
  let fields ← fields? ["origin", "size"] v
  return {
    origin := ← fields.required "origin" Vec3.ofJson?
    size := ← fields.required "size" Vec3.ofJson? }

/-- A document, whose parts need not fit together. -/
def Document.ofJson? (v : Json) : Option (Document Float32) := do
  let fields ← fields? ["start", "engine", "rules", "links", "prefabs", "space", "scatter",
    "repeat", "seed"] v
  return {
    start := ← fields.required "start" text?
    engine := ← fields.withDefault "engine" EngineSettings.ofJson? .default
    rules := ← fields.withDefault "rules" (list? Rule.ofJson?) []
    links := ← fields.withDefault "links" (list? Link.ofJson?) []
    prefabs := ← fields.withDefault "prefabs" (list? Prefab.ofJson?) []
    space := ← fields.withDefault "space" (optional? SpaceConfig.ofJson?) none
    scatter := ← fields.withDefault "scatter" (optional? ScatterArea.ofJson?) none
    repetitions := ← fields.withDefault "repeat" (nat? 32) 1
    seed := ← fields.withDefault "seed" (optional? (nat? 64)) none }

end SpatialGrammar
