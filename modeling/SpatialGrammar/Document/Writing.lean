/-
SpatialGrammar/Document/Writing.lean

Documents as JSON values, with every field in the order of declaration.
-/
import SpatialGrammar.Decimal.Layout
import SpatialGrammar.Document.Basic
import SpatialGrammar.Json.Writing

namespace SpatialGrammar

namespace Json

/-- A whole number. -/
def ofNat (n : Nat) : Json := .number (Decimal.natText n)

/-- A single-precision number; one that is not finite cannot be written and becomes `null`. -/
def ofSingle (x : Float32) : Json :=
  match Binary32.parts x with
  | .finite _ _ _ => .number (String.ofList (Decimal.Layout.document.text x))
  | .infinite _ | .nan => .null

/-- A list of data. -/
def ofList {β : Type} (write : β → Json) (xs : List β) : Json := .array (xs.map write)

/-- Data that may be absent. -/
def ofOption {β : Type} (write : β → Json) : Option β → Json
  | none => .null
  | some b => write b

end Json

open Json

/-- The three coordinates. -/
def Vec3.toJson (v : Vec3 Float32) : Json := ofList ofSingle v.toList

/-- The fields of a tile. -/
def TileShape.toFields (t : TileShape Float32) : List (String × Json) :=
  let span (s : FaceSpan Float32) :=
    ofFields [("start", ofSingle s.first), ("end", ofSingle s.last)]
  [("size", t.size.toJson),
   ("faces", ofFields [
      ("x_pos", ofNat t.faces.xPos), ("z_neg", ofNat t.faces.zNeg), ("x_neg", ofNat t.faces.xNeg),
      ("z_pos", ofNat t.faces.zPos), ("y_pos", ofNat t.faces.yPos), ("y_neg", ofNat t.faces.yNeg)]),
   ("spans", ofFields [
      ("x_pos", span t.spans.xPos), ("z_neg", span t.spans.zNeg), ("x_neg", span t.spans.xNeg),
      ("z_pos", span t.spans.zPos)])]

/-- The fields of a generator. -/
def GeneratorPrefab.toFields (g : GeneratorPrefab) : List (String × Json) :=
  [("count", ofNat g.params.count),
   ("axis_mode", ofText g.params.axisMode.label),
   ("first", ofOption ofNat g.params.first),
   ("last", ofOption ofNat g.params.last),
   ("allow_repeats", .bool g.params.allowRepeats),
   ("random_start_rotation", .bool g.params.randomStartRotation),
   ("tiles", ofList ofText g.tiles)]

/-- A prefab: its name, its kind, and the fields of that kind. -/
def Prefab.toJson (p : Prefab Float32) : Json :=
  let (tag, fields) := match p.kind with
    | .marker => ("marker", [])
    | .tile shape => ("tile", shape.toFields)
    | .generator g => ("generator", g.toFields)
  ofFields (("name", ofText p.name) :: ("kind", ofText tag) :: fields)

/-- The settings of runs. -/
def EngineSettings.toJson (e : EngineSettings) : Json :=
  ofFields [
    ("iterations", ofNat e.iterations),
    ("endless", .bool e.endless),
    ("relaxed_recovery", .bool e.relaxedRecovery),
    ("max_recovery_attempts", ofNat e.maxRecoveryAttempts)]

/-- An alternative of a rule. -/
def Alternative.toJson (a : Alternative Float32) : Json :=
  ofFields [("probability", ofSingle a.probability), ("template", ofText a.template)]

/-- A rule. -/
def Rule.toJson (r : Rule Float32) : Json :=
  ofFields [("input", ofText r.input), ("outputs", ofList Alternative.toJson r.outputs)]

/-- A link. -/
def Link.toJson (l : Link) : Json :=
  ofFields [("symbol", ofText l.symbol), ("prefabs", ofList ofText l.prefabs)]

/-- A space. -/
def SpaceConfig.toJson (s : SpaceConfig Float32) : Json :=
  ofFields [
    ("origin", s.origin.toJson),
    ("size", s.size.toJson),
    ("spawn_start", s.spawnStart.toJson),
    ("relaxed", .bool s.relaxed)]

/-- A box to scatter runs into. -/
def ScatterArea.toJson (s : ScatterArea Float32) : Json :=
  ofFields [("origin", s.origin.toJson), ("size", s.size.toJson)]

namespace Document

/-- A document. -/
def toJson (d : Document Float32) : Json :=
  ofFields [
    ("start", ofText d.start),
    ("engine", d.engine.toJson),
    ("rules", ofList Rule.toJson d.rules),
    ("links", ofList Link.toJson d.links),
    ("prefabs", ofList Prefab.toJson d.prefabs),
    ("space", ofOption SpaceConfig.toJson d.space),
    ("scatter", ofOption ScatterArea.toJson d.scatter),
    ("repeat", ofNat d.repetitions),
    ("seed", ofOption ofNat d.seed)]

/-- The text of a document. -/
def pretty (d : Document Float32) : String := d.toJson.pretty

end Document

end SpatialGrammar
