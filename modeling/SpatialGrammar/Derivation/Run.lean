/-
SpatialGrammar/Derivation/Run.lean

A run from its starting text to its report.

`Run.step` makes one pass and what follows from it.  After a pass that succeeded the
next sentence becomes the current one.  After a pass that failed its entities are
taken back, the alternative that led to the violation is remembered, and the sentence
is written anew for another attempt.  The run ends when the sentence is empty, when no
further iteration is allowed, or when an iteration has had too many attempts.

A run need not end, so `Run.run?` is told how many passes to make at most; what it
answers does not depend on that number.
-/
import SpatialGrammar.Derivation.Pass

namespace SpatialGrammar

/-- The end of a run. -/
structure Finished (W ρ : Type) where
  outcome : Except RecoveryExhausted Report
  world : W
  source : ρ
  /-- The requests made to the world, in order. -/
  calls : List Call

/-- What follows from a pass. -/
inductive Step (W ρ : Type) where
  /-- The run goes on from here. -/
  | again (s : RunState W ρ)
  /-- The run has ended. -/
  | done (f : Finished W ρ)

namespace RunState

variable {W ρ : Type}

/-- The greatest number that an iteration is given; later ones share it. -/
def lastIteration : Nat := UInt32.size - 1

/-- Enters a pass that succeeded into the records and makes the next sentence the current one. -/
def commit (next : Sentence) (s : RunState W ρ) : RunState W ρ :=
  { s with
    records := s.records.push ⟨s.iteration, s.current.text, s.attempts⟩
    previous := some s.current
    current := next
    iteration := min (s.iteration + 1) lastIteration
    attempts := 0 }

/-- Remembers the alternative that led to a violation, which is the one that the producer of the
offending symbol chose.  A symbol of the starting text has no producer to blame. -/
def blame (symbol : SymbolId) (s : RunState W ρ) : RunState W ρ :=
  match (s.arena.get symbol).parent with
  | none => s
  | some parent =>
    { s with exclusions := s.exclusions.record parent (s.arena.get parent).chosen }

variable [World W ρ]

/-- Takes back the entities of a pass that failed, and counts the failure. -/
def abandon (s : RunState W ρ) : RunState W ρ :=
  let s := s.rollBack
  { s with attempts := s.attempts + 1, recoveries := s.recoveries + 1 }

/-- Ends the run with a report. -/
def succeed (termination : Termination) (s : RunState W ρ) : Finished W ρ :=
  let (spawned, s) := s.finish
  { outcome := .ok {
      iterations := s.records.toList
      finalSentence := s.current.text
      termination
      recoveries := s.recoveries
      diagnostics := s.diagnostics.toList
      spawned }
    world := s.world
    source := s.source
    calls := s.calls.toList }

/-- Ends the run because of the violation by a symbol's entity. -/
def giveUp (symbol : SymbolId) (s : RunState W ρ) : Finished W ρ :=
  let failure : RecoveryExhausted := ⟨s.iteration, s.attempts, (s.arena.get symbol).raw⟩
  let (_, s) := s.finish
  { outcome := .error failure, world := s.world, source := s.source, calls := s.calls.toList }

end RunState

namespace Run

variable {α W ρ : Type} [Scalar α] [Numeral α] [RandomSource ρ α] [World W ρ]

/-- The state of a run whose starting text has been read. -/
def begin (r : Run α W) (world : W) (source : ρ) : RunState W ρ :=
  let (current, s) := r.readStart (.initial world source)
  { s with current }

/-- What follows from a pass that succeeded. -/
def afterCompletion (next : Sentence) (s : RunState W ρ) : Step W ρ :=
  let s := s.commit next
  if next.isEmpty then .done (s.succeed .converged) else .again s

/-- The state for another attempt: the sentence is written anew. -/
def retry (r : Run α W) (symbol : SymbolId) (s : RunState W ρ) : RunState W ρ :=
  let (current, s) := r.derive (s.blame symbol)
  { s with current }

/-- What follows from a pass that failed. -/
def afterViolation (r : Run α W) (symbol : SymbolId) (s : RunState W ρ) : Step W ρ :=
  let s := s.abandon
  if r.settings.maxRecovery < s.attempts then .done (s.giveUp symbol)
  else .again (r.retry symbol s)

/-- One pass, if another iteration is allowed, and what follows from it. -/
def step (r : Run α W) (s : RunState W ρ) : Step W ρ :=
  if r.settings.budget.allows s.iteration then
    match r.pass s with
    | .completed next s => afterCompletion next s
    | .violated symbol s => r.afterViolation symbol s
  else .done (s.succeed .budgetExhausted)

/-- The end of the run from a state, if it comes within `fuel` steps. -/
def runFrom? (r : Run α W) : Nat → RunState W ρ → Option (Finished W ρ)
  | 0, _ => none
  | fuel + 1, s =>
    match r.step s with
    | .done f => some f
    | .again s => runFrom? r fuel s

/-- The end of the run, if it comes within `fuel` steps. -/
def run? (r : Run α W) (fuel : Nat) (world : W) (source : ρ) : Option (Finished W ρ) :=
  r.runFrom? fuel (r.begin world source)

end Run

end SpatialGrammar
