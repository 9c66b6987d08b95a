/-
SpatialGrammar/Derivation/World.lean

What a run asks of the world that holds its entities.

A world makes an entity for an object, runs a method on an entity, takes an entity
back, and hears of the end of the run.  A `Call` is a record of one such request and
of the answer; the answers of the test for violations are among them.
-/
import SpatialGrammar.Names.Handle

namespace SpatialGrammar

/-- The object for which an entity is wanted. -/
structure SpawnRequest where
  name : String
  args : String
  deriving DecidableEq, Repr

/-- A method and what it may refer to. -/
structure MethodCall where
  name : String
  args : String
  /-- The entities of the producers above the object that has the method, nearest first. -/
  lineage : List (Option EntityId)
  /-- The entity of the method symbol's own producer. -/
  producer : Option EntityId
  deriving DecidableEq, Repr

/-- A world of entities, in states of type `W`, that may draw from sources in states of
type `ρ`. -/
class World (W ρ : Type) where
  /-- Makes an entity. -/
  spawn : SpawnRequest → W → ρ → EntityId × W × ρ
  /-- Runs a method on an entity and tells whether there is such a method. -/
  perform : EntityId → MethodCall → W → Bool × W
  /-- Takes back an entity made in a pass that failed. -/
  discard : EntityId → W → W
  /-- Tells an entity that the run is over. -/
  settle : EntityId → W → W

/-- A request to the world and its answer. -/
inductive Call where
  /-- The entity was made. -/
  | spawn (entity : EntityId) (request : SpawnRequest)
  /-- The method was asked for, and there is or is not such a method. -/
  | method (entity : EntityId) (call : MethodCall) (found : Bool)
  /-- The entity was tested, and does or does not violate the space. -/
  | check (entity : EntityId) (violates : Bool)
  /-- The entity was taken back. -/
  | discard (entity : EntityId)
  /-- The entity was told of the end. -/
  | settle (entity : EntityId)
  deriving DecidableEq, Repr

end SpatialGrammar
