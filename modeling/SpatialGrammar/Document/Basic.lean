/-
SpatialGrammar/Document/Basic.lean

Grammar documents: everything that an execution needs.
-/
import SpatialGrammar.Geometry.Region
import SpatialGrammar.Derivation.Report
import SpatialGrammar.Rule.Table
import SpatialGrammar.Scene.Link
import SpatialGrammar.Scene.Prefab

namespace SpatialGrammar

/-- The settings of the runs of a document. -/
structure EngineSettings where
  /-- How many iterations a run may make, unless it is endless. -/
  iterations : Nat
  /-- Whether a run goes on until its sentence is empty. -/
  endless : Bool
  relaxedRecovery : Bool
  maxRecoveryAttempts : Nat
  deriving DecidableEq, Repr

/-- The settings where a document says nothing. -/
def EngineSettings.default : EngineSettings := ⟨1, false, false, Settings.defaultMaxRecovery⟩

/-- The space that tiles must stay in. -/
structure SpaceConfig (α : Type) where
  origin : Vec3 α
  size : Vec3 α
  /-- Where holders are made, seen from the origin. -/
  spawnStart : Vec3 α
  /-- Has the same effect as relaxed recovery in the settings. -/
  relaxed : Bool
  deriving BEq, DecidableEq, Repr

/-- The box into which finished runs are scattered. -/
structure ScatterArea (α : Type) where
  origin : Vec3 α
  size : Vec3 α
  deriving BEq, DecidableEq, Repr

/-- A grammar and its surroundings. -/
structure Document (α : Type) where
  /-- The text that every run starts from. -/
  start : String
  engine : EngineSettings
  rules : List (Rule α)
  links : List Link
  prefabs : List (Prefab α)
  /-- The space of validation; without it nothing violates anything. -/
  space : Option (SpaceConfig α)
  scatter : Option (ScatterArea α)
  /-- How many times the grammar is run. -/
  repetitions : Nat
  /-- The seed to use where none is asked for. -/
  seed : Option Nat
  deriving BEq, DecidableEq, Repr

namespace Document

variable {α : Type}

/-- The settings of the runs; the space may turn on relaxed recovery too. -/
def settings (d : Document α) : Settings where
  budget := if d.engine.endless then .unbounded else .bounded d.engine.iterations
  relaxed := d.engine.relaxedRecovery || (d.space.map SpaceConfig.relaxed).getD false
  maxRecovery := d.engine.maxRecoveryAttempts

variable [Scalar α]

/-- The region that the space spans. -/
def region? (d : Document α) : Option (Region α) :=
  d.space.map fun s => .ofOriginSize s.origin s.size

/-- Where holders are made, if there is a space. -/
def spawnOrigin? (d : Document α) : Option (Vec3 α) :=
  d.space.map fun s => s.origin.add s.spawnStart

end Document

end SpatialGrammar
