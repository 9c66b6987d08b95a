/-
SpatialGrammar/Derivation/Pass.lean

One pass over a sentence.

A pass reads the symbols of the sentence from left to right.  Rules and objects are
expanded into the next sentence; an object also gets an entity, and methods work on
the entity of the object before them.  An entity is tested once its methods are
through, that is before the next rule or object and at the end of the sentence.  The
first entity that violates the space ends the pass.

`derive` writes the current sentence anew from the one before it, without making
entities, after a pass has failed.
-/
import SpatialGrammar.Derivation.State
import SpatialGrammar.Rule.Table

namespace SpatialGrammar

/-- What a run goes by: its rules, its settings, the text it starts from, and the test for an
entity that violates the space. -/
structure Run (α W : Type) where
  rules : RuleTable α
  settings : Settings
  start : String
  violates : W → EntityId → Bool

/-- How a pass ends. -/
inductive PassResult (W ρ : Type) where
  /-- Every entity passed its test; the next sentence is written. -/
  | completed (next : Sentence) (s : RunState W ρ)
  /-- The entity of the symbol violates the space. -/
  | violated (symbol : SymbolId) (s : RunState W ρ)

namespace Run

variable {α W ρ : Type}

/-- The alternatives that a symbol may not be expanded by when a sentence is written anew: those
that failed, for the symbol that chose them, or for every symbol in relaxed mode. -/
def excludedFor (r : Run α W) (failed : ExclusionSet) (id : SymbolId) : List Nat :=
  if r.settings.relaxed || failed.parent = some id then failed.indices else []

variable [Scalar α] [Numeral α] [RandomSource ρ α]

/-- The sentence of the starting text. -/
def readStart (r : Run α W) (s : RunState W ρ) : Sentence × RunState W ρ :=
  s.read r.start none .empty

/-- Expands a symbol at the end of `next`. -/
def expand (r : Run α W) (id : SymbolId) (excluded : List Nat) (next : Sentence)
    (s : RunState W ρ) : Sentence × RunState W ρ :=
  let (drawn, source) := r.rules.lookup (s.arena.get id).name excluded s.source
  let s := { s with source, arena := s.arena.setChosen id (drawn.map Drawn.index) }
  match drawn with
  | none => (next, s)
  | some drawn => s.read drawn.template (some id) next

/-- Tests the entity of the object that waits for its test, and gives the object if the entity
violates the space. -/
def check (r : Run α W) (waiting : Option SymbolId) (s : RunState W ρ) :
    Option SymbolId × RunState W ρ :=
  match waiting with
  | none => (none, s)
  | some id =>
    match (s.arena.get id).entity with
    | none => (none, s)
    | some entity =>
      let bad := r.violates s.world entity
      let s := s.record (.check entity bad)
      if bad then
        (some id, s.note (.spatialViolation s.iteration (s.arena.get id).raw entity))
      else (none, s)

/-- The pass over the given symbols, of which `next` is the next sentence so far and `waiting` the
object whose entity waits for its test. -/
def passFrom [World W ρ] (r : Run α W) :
    List SymbolId → Sentence → Option SymbolId → RunState W ρ → PassResult W ρ
  | [], next, waiting, s =>
    match r.check waiting s with
    | (some symbol, s) => .violated symbol s
    | (none, s) => .completed next s
  | id :: rest, next, waiting, s =>
    match (s.arena.get id).kind with
    | .method => passFrom r rest next waiting (s.dispatch id waiting)
    | .invalid => passFrom r rest next waiting s
    | .rule =>
      match r.check waiting s with
      | (some symbol, s) => .violated symbol s
      | (none, s) =>
        let (next, s) := r.expand id [] next s
        passFrom r rest next none s
    | .object =>
      match r.check waiting s with
      | (some symbol, s) => .violated symbol s
      | (none, s) =>
        let (next, s) := r.expand id [] next (s.spawn id)
        passFrom r rest next (some id) s

/-- The pass over the current sentence. -/
def pass [World W ρ] (r : Run α W) (s : RunState W ρ) : PassResult W ρ :=
  r.passFrom s.current.symbols.toList .empty none { s with spawnedThisPass := #[] }

/-- Writes the symbols of a sentence anew at the end of `next`. -/
def deriveFrom (r : Run α W) (failed : ExclusionSet) :
    List SymbolId → Sentence → RunState W ρ → Sentence × RunState W ρ
  | [], next, s => (next, s)
  | id :: rest, next, s =>
    if (s.arena.get id).kind.expands then
      let (next, s) := r.expand id (r.excludedFor failed id) next s
      deriveFrom r failed rest next s
    else deriveFrom r failed rest next s

/-- The current sentence written anew. -/
def derive (r : Run α W) (s : RunState W ρ) : Sentence × RunState W ρ :=
  match s.previous with
  | none => r.readStart s
  | some previous => r.deriveFrom s.exclusions previous.symbols.toList .empty s

end Run

end SpatialGrammar
