/-
SpatialGrammar/Derivation/State.lean

The state of a run, and the changes that one symbol brings about.

Besides what the run goes on from, the state keeps what it will report: the records
of the iterations, the diagnostics, and `calls`, the requests made to the world with
their answers.  Nothing is ever read back from these; they only grow.
-/
import SpatialGrammar.Derivation.Arena
import SpatialGrammar.Derivation.Awaiting
import SpatialGrammar.Derivation.Report
import SpatialGrammar.Derivation.World
import SpatialGrammar.Rule.Exclusion

namespace SpatialGrammar

/-- The state of a run over a world in states `W` and a source in states `ρ`. -/
structure RunState (W ρ : Type) where
  world : W
  source : ρ
  arena : Arena
  /-- The number of the iteration, from zero. -/
  iteration : Nat
  /-- The sentence of this iteration. -/
  current : Sentence
  /-- The sentence of the iteration before. -/
  previous : Option Sentence
  exclusions : ExclusionSet
  /-- The entities made since the last pass began, in order. -/
  spawnedThisPass : Array EntityId
  awaiting : Awaiting
  /-- How many passes of this iteration failed. -/
  attempts : Nat
  /-- How many passes failed since the beginning. -/
  recoveries : Nat
  records : Array IterationRecord
  diagnostics : Array Diagnostic
  calls : Array Call

namespace RunState

variable {α W ρ : Type}

/-- The state before anything is read. -/
def initial (world : W) (source : ρ) : RunState W ρ where
  world
  source
  arena := .empty
  iteration := 0
  current := .empty
  previous := none
  exclusions := .empty
  spawnedThisPass := #[]
  awaiting := .empty
  attempts := 0
  recoveries := 0
  records := #[]
  diagnostics := #[]
  calls := #[]

/-- Notes an event. -/
def note (s : RunState W ρ) (d : Diagnostic) : RunState W ρ :=
  { s with diagnostics := s.diagnostics.push d }

/-- Keeps a request to the world. -/
def record (s : RunState W ρ) (c : Call) : RunState W ρ := { s with calls := s.calls.push c }

/-- Reads a text and puts its symbols, with the given producer, at the end of `next`. -/
def read [Scalar α] [Numeral α] [RandomSource ρ α] (text : String) (parent : Option SymbolId)
    (next : Sentence) (s : RunState W ρ) : Sentence × RunState W ρ :=
  let (found, source) := parse text s.source
  let (next, arena) := next.append s.arena found.tokens parent
  (next, { s with
    source, arena,
    diagnostics := s.diagnostics ++ found.errors.map (Diagnostic.parse s.iteration) })

variable [World W ρ]

/-- Has an entity made for an object; it waits for the end of the run. -/
def spawn (id : SymbolId) (s : RunState W ρ) : RunState W ρ :=
  let symbol := s.arena.get id
  let request : SpawnRequest := ⟨symbol.name, symbol.args⟩
  let (entity, world, source) := World.spawn request s.world s.source
  { s with
    world, source
    arena := s.arena.setEntity id entity
    spawnedThisPass := s.spawnedThisPass.push entity
    awaiting := s.awaiting.subscribe entity
    calls := s.calls.push (.spawn entity request) }

/-- Has a method run on the entity of the object before it. -/
def dispatch (id : SymbolId) (target : Option SymbolId) (s : RunState W ρ) : RunState W ρ :=
  let method := s.arena.get id
  match target with
  | none => s.note (.methodPlacementOrder s.iteration method.raw)
  | some target =>
    match (s.arena.get target).entity with
    | none => s
    | some entity =>
      let call : MethodCall :=
        ⟨method.name, method.args, s.arena.lineage target,
          method.parent.bind fun p => (s.arena.get p).entity⟩
      let (found, world) := World.perform ρ entity call s.world
      let s := { s with world }.record (.method entity call found)
      if found then s
      else s.note (.methodNotFound s.iteration method.raw (s.arena.get target).raw)

/-- Takes back the entities of the pass, in the order in which they were made. -/
def rollBack (s : RunState W ρ) : RunState W ρ :=
  let s := s.spawnedThisPass.foldl (fun s entity =>
    { s with
      world := World.discard ρ entity s.world
      awaiting := s.awaiting.unsubscribe entity }.record (.discard entity)) s
  { s with spawnedThisPass := #[] }

/-- Tells every entity that waits of the end of the run; they are given in order. -/
def finish (s : RunState W ρ) : List EntityId × RunState W ρ :=
  let (survivors, awaiting) := s.awaiting.drain
  let s := survivors.foldl (fun s entity =>
    { s with world := World.settle ρ entity s.world }.record (.settle entity)) { s with awaiting }
  (survivors, s)

end RunState

end SpatialGrammar
