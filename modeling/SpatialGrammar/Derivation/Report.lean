/-
SpatialGrammar/Derivation/Report.lean

How far a run may go and what it reports in the end.
-/
import SpatialGrammar.Digest.Fingerprint
import SpatialGrammar.Derivation.Diagnostic

namespace SpatialGrammar

/-- How many iterations a run may make. -/
inductive Budget where
  /-- At most so many. -/
  | bounded (limit : Nat)
  /-- As many as it takes to empty the sentence. -/
  | unbounded
  deriving DecidableEq, Repr

/-- Whether the iteration with the given number, from zero, may be made. -/
def Budget.allows : Budget → Nat → Bool
  | bounded limit, iteration => iteration < limit
  | unbounded, _ => true

/-- The settings of a run. -/
structure Settings where
  budget : Budget
  /-- Whether failed alternatives are excluded for every symbol, and not only for the one that
  chose them. -/
  relaxed : Bool
  /-- How many failed passes one iteration may have. -/
  maxRecovery : Nat
  deriving DecidableEq, Repr

namespace Settings

/-- The failed passes that one iteration may have where nothing else is said. -/
def defaultMaxRecovery : Nat := 1024

/-- One iteration, with failed alternatives excluded for the symbol that chose them. -/
def default : Settings := ⟨.bounded 1, false, defaultMaxRecovery⟩

end Settings

/-- Why a run ended without failing. -/
inductive Termination where
  /-- The sentence became empty. -/
  | converged
  /-- No further iteration was allowed. -/
  | budgetExhausted
  deriving DecidableEq, Repr

/-- The record of an iteration. -/
structure IterationRecord where
  /-- The number of the iteration, from zero. -/
  index : Nat
  /-- The text of the sentence whose pass succeeded. -/
  sentence : String
  /-- How many passes failed before. -/
  recoveries : Nat
  deriving DecidableEq, Repr

/-- The digest of the sentence of an iteration. -/
def IterationRecord.digest (r : IterationRecord) : Digest := Fingerprint.ofSentence r.sentence

/-- The report of a run that did not fail. -/
structure Report where
  iterations : List IterationRecord
  /-- The text of the sentence that is left. -/
  finalSentence : String
  termination : Termination
  /-- How many passes failed. -/
  recoveries : Nat
  diagnostics : List Diagnostic
  /-- The entities made by passes that succeeded, in order. -/
  spawned : List EntityId
  deriving DecidableEq, Repr

/-- The digest of the sentences of all iterations. -/
def Report.digest (r : Report) : Digest :=
  Fingerprint.ofRun (r.iterations.map IterationRecord.digest)

/-- The failure of a run: an iteration had more failed passes than it may have. -/
structure RecoveryExhausted where
  iteration : Nat
  /-- How many passes of the iteration failed. -/
  attempts : Nat
  /-- The text of the object that violated the space last. -/
  symbol : String
  deriving DecidableEq, Repr

/-- The wording of a failure. -/
def RecoveryExhausted.message (e : RecoveryExhausted) : String :=
  "spatial recovery gave up on " ++ e.symbol ++ " after " ++ Decimal.natText e.attempts ++
    " attempts in iteration " ++ Decimal.natText e.iteration

end SpatialGrammar
