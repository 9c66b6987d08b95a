/-
SpatialGrammar/Scene/Method.lean

The methods of entities.

A kind of entity has methods of its own, and all kinds share some more.  A method
whose arguments cannot be read does nothing; that it exists is told all the same.
-/
import SpatialGrammar.Derivation.World
import SpatialGrammar.Scene.Hierarchy

namespace SpatialGrammar

/-- A method. -/
inductive Method where
  /-- Puts a tile on the tile of the producer: `Place(anchorFace,ownFace)`. -/
  | place
  /-- Moves to a point of the world: `SetPos(x,y,z)`. -/
  | setPos
  /-- Turns by angles in degrees, on top of the present turn: `SetRot(x,y,z)`. -/
  | setRot
  /-- Hangs below the entity of a producer: `SetParent(keepWorld,depth)`. -/
  | setParent
  /-- Moves by an offset within the frame: `Move(x,y,z)`. -/
  | move
  deriving DecidableEq, Repr

namespace Method

/-- The name by which a method is called. -/
def name : Method → String
  | place => "Place" | setPos => "SetPos" | setRot => "SetRot" | setParent => "SetParent"
  | move => "Move"

/-- The methods of every entity. -/
def shared : List Method := [setPos, setRot, setParent, move]

/-- The methods of an entity of the given kind, in the order in which they are looked up. -/
def ofKind {α : Type} : EntityKind α → List Method
  | .tile _ => place :: shared
  | .holder | .marker | .generator _ _ => shared

/-- The entity of the producer at a depth: the nearest producer has depth one, and a depth beyond
the last producer means the last one. -/
def producerAt? (lineage : List (Option EntityId)) (depth : Arguments.Depth) : Option EntityId :=
  let place := match depth with
    | .root => lineage.length
    | .levels n => min n lineage.length
  match place with
  | 0 => none
  | n + 1 => (lineage[n]?).join

variable {α : Type} [Scalar α]

section Handlers

variable [Numeral α]

/-- `SetPos`. -/
def runSetPos (id : EntityId) (args : List Char) (s : Scene α) : Scene α :=
  match Arguments.vec3? args, s.world? id with
  | some position, some world => s.setWorld id { world with position }
  | _, _ => s

/-- `SetRot`. -/
def runSetRot (id : EntityId) (args : List Char) (s : Scene α) : Scene α :=
  match Arguments.vec3? args, s.world? id with
  | some euler, some world =>
    let rotation := ((Quat.ofEuler euler).multiply world.rotation).normalize
    s.setWorld id { world with rotation }
  | _, _ => s

/-- `Move`. -/
def runMove (id : EntityId) (args : List Char) (s : Scene α) : Scene α :=
  match Arguments.vec3? args, s.get? id with
  | some offset, some e =>
    s.setPose id { e.pose with position := e.pose.position.add offset }
  | _, _ => s

end Handlers

/-- The depth that the second argument asks for; without one it is the nearest producer. -/
def depthArgument? : List (List Char) → Option Arguments.Depth
  | [] => some (.levels 1)
  | part :: _ => Arguments.depth? part

/-- `SetParent`. -/
def runSetParent (id : EntityId) (call : MethodCall) (s : Scene α) : Scene α :=
  match Arguments.split call.args.toList with
  | [] => s
  | keep :: rest =>
    match (depthArgument? rest).bind (producerAt? call.lineage) with
    | none => s
    | some parent => (s.setParent id parent (Arguments.flag keep)).2

/-- The geometry of a tile and where it stands in the world. -/
def standing? (s : Scene α) (id : EntityId) : Option (StandingTile α) :=
  match (s.get? id).map Entity.kind, s.world? id with
  | some (.tile shape), some pose => some ⟨shape, pose⟩
  | _, _ => none

/-- The axes of a join: a stack where the anchor's face is the top or the bottom, or where the
arguments hold a capital `Y`. -/
def joinMode (args : List Char) (anchorFace : Face) : AxisMode :=
  if args.contains 'Y' || anchorFace.isVertical then .y else .xz

/-- `Place`. -/
def runPlace (id : EntityId) (call : MethodCall) (s : Scene α) : Scene α :=
  let args := call.args.toList
  match Arguments.split args with
  | anchorText :: movingText :: _ =>
    match Face.read anchorText, Face.read movingText, call.producer.bind (standing? s),
        standing? s id with
    | .ok anchorFace, .ok movingFace, some anchor, some moving =>
      match anchor.place anchorFace moving movingFace (joinMode args anchorFace) with
      | .ok world => s.setWorld id world
      | .error _ => s
    | _, _, _, _ => s
  | _ => s

variable [Numeral α]

/-- Runs a method on an entity. -/
def run (id : EntityId) (call : MethodCall) (s : Scene α) : Method → Scene α
  | place => runPlace id call s
  | setPos => runSetPos id call.args.toList s
  | setRot => runSetRot id call.args.toList s
  | setParent => runSetParent id call s
  | move => runMove id call.args.toList s

end Method

namespace Scene

variable {α : Type}

/-- The method of a live entity that has the given name. -/
def method? (s : Scene α) (id : EntityId) (name : String) : Option Method :=
  (s.get? id).bind fun e => (Method.ofKind e.kind).find? fun m => m.name = name

/-- Runs a method on an entity and tells whether the entity has it. -/
def dispatch [Scalar α] [Numeral α] (id : EntityId) (call : MethodCall) (s : Scene α) :
    Bool × Scene α :=
  match s.method? id call.name with
  | none => (false, s)
  | some m => (true, m.run id call s)

end Scene

end SpatialGrammar
