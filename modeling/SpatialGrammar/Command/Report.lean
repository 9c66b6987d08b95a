/-
SpatialGrammar/Command/Report.lean

The report of an execution, for readers and for programs.
-/
import SpatialGrammar.Document.Execution
import SpatialGrammar.Document.Writing

namespace SpatialGrammar

/-- The name of the reason for which a run ended. -/
def Termination.label : Termination → String
  | converged => "converged"
  | budgetExhausted => "budget exhausted"

/-- The record of an iteration, for programs. -/
def IterationRecord.toJson (r : IterationRecord) : Json :=
  .ofFields [
    ("index", .ofNat r.index),
    ("sentence", .ofText r.sentence),
    ("digest", .ofText (Fingerprint.hex r.digest)),
    ("recoveries", .ofNat r.recoveries)]

/-- The record of an iteration, for readers. -/
def IterationRecord.line (r : IterationRecord) : String :=
  "  [" ++ Decimal.natText r.index ++ "] " ++ Fingerprint.shortHex r.digest ++ " " ++ r.sentence

namespace RunOutcome

/-- The outcome of the run with the given number, for programs. -/
def toJson (run : Nat) (o : RunOutcome) : Json :=
  .ofFields <| match o.result with
    | .ok report => [
        ("run", .ofNat run),
        ("termination", .ofText report.termination.label),
        ("recoveries", .ofNat report.recoveries),
        ("spawned", .ofNat report.spawned.length),
        ("iterations", .ofList IterationRecord.toJson report.iterations),
        ("run_digest", .ofText (Fingerprint.hex report.digest)),
        ("diagnostics", .ofList (Json.ofText ∘ Diagnostic.message) report.diagnostics),
        ("error", .null)]
    | .error e => [
        ("run", .ofNat run),
        ("termination", .null),
        ("recoveries", .ofNat 0),
        ("spawned", .ofNat 0),
        ("iterations", .array []),
        ("run_digest", .null),
        ("diagnostics", .array []),
        ("error", .ofText e.message)]

/-- The outcome of the run with the given number, for readers. -/
def lines (run : Nat) (o : RunOutcome) : List String :=
  let heading := "run " ++ Decimal.natText run ++ ": "
  match o.result with
  | .error e => [heading ++ "error: " ++ e.message]
  | .ok report =>
    (heading ++ report.termination.label ++ " after " ++ Decimal.natText report.iterations.length ++
        " iterations, " ++ Decimal.natText report.recoveries ++ " recoveries, " ++
        Decimal.natText report.spawned.length ++ " entities") ::
      report.iterations.map IterationRecord.line ++
      report.diagnostics.map (fun d => "  ! " ++ d.message) ++
      ["  digest " ++ Fingerprint.hex report.digest]

/-- Whether the run gave up. -/
def gaveUp (o : RunOutcome) : Bool :=
  match o.result with
  | .ok _ => false
  | .error _ => true

end RunOutcome

/-- What an execution came to. -/
structure ExecutionReport where
  /-- The name of the document as it was given. -/
  document : String
  seed : Nat
  /-- How many entities are live in the end. -/
  entities : Nat
  outcomes : List RunOutcome

namespace ExecutionReport

/-- The report for programs. -/
def toJson (r : ExecutionReport) : Json :=
  .ofFields [
    ("document", .ofText r.document),
    ("seed", .ofNat r.seed),
    ("entities", .ofNat r.entities),
    ("runs", .array (r.outcomes.mapIdx RunOutcome.toJson))]

/-- The report for readers. -/
def lines (r : ExecutionReport) : List String :=
  ("seed " ++ Decimal.natText r.seed) :: (r.outcomes.mapIdx RunOutcome.lines).flatten ++
    [Decimal.natText r.entities ++ " live entities"]

/-- How many runs gave up. -/
def failures (r : ExecutionReport) : Nat := r.outcomes.countP RunOutcome.gaveUp

end ExecutionReport

end SpatialGrammar
