/-
SpatialGrammar/Command/Response.lean

What the program answers to its arguments.

A response is what is printed, the error that is reported, and the exit code: zero for
success, one for an error, two for arguments that cannot be read.  Files are looked up
by a function, and a seed that is neither given nor set in the document is supplied by
the caller, so that nothing here depends on the outside.

Executions need not end; the response is missing where a run takes more than `fuel`
steps.
-/
import SpatialGrammar.Command.Arguments
import SpatialGrammar.Command.Report
import SpatialGrammar.Document.Validity
import SpatialGrammar.Random.Xoroshiro

namespace SpatialGrammar

/-- What the program prints and how it exits. -/
structure Response where
  exit : Nat
  output : String
  error : Option String
  deriving DecidableEq, Repr

namespace Response

/-- Lines with their line breaks. -/
def ofLines (lines : List String) : String := String.join (lines.map (· ++ "\n"))

/-- A success with the given lines. -/
def success (lines : List String) : Response := ⟨0, ofLines lines, none⟩

/-- An error after the given lines. -/
def failure (lines : List String) (error : String) : Response := ⟨1, ofLines lines, some error⟩

/-- The response to arguments that cannot be read. -/
def refusal : Response := ⟨2, "", none⟩

/-- What is printed about the use of the program. -/
def usage : List String :=
  ["Run and verify constrained grammar documents", "",
   "Usage: strata [-v] run <DOCUMENT> [--seed <SEED>] [--json]",
   "       strata [-v] check <DOCUMENT>",
   "       strata [-v] torture <DOCUMENT> [--runs <RUNS>] [--seed <SEED>]"]

end Response

/-- What the program sees of its surroundings. -/
structure Surroundings where
  /-- The text of a file. -/
  file? : String → Option String
  /-- The seed where none is given and the document sets none. -/
  spareSeed : Nat
  /-- How many steps a run may take. -/
  fuel : Nat

namespace Document

/-- An execution in a scene of its own, from a seed. -/
def replay? (d : Document Float32) (fuel seed : Nat) :
    Option (List RunOutcome × Scene Float32) :=
  (d.execute? fuel d.buildScene (Xoroshiro.ofSeed (UInt64.ofNat seed))).map
    fun (outcomes, scene, _) => (outcomes, scene)

end Document

/-- What two executions of a document from one seed must have in common. -/
structure Footprint where
  /-- The digest of each run, or the wording of its failure. -/
  runs : List (String ⊕ String)
  /-- The live entities with their names and where they stand in the world. -/
  entities : List (String × Vec3 Float32)
  deriving BEq

/-- What is compared of an execution. -/
def Footprint.of (outcomes : List RunOutcome) (scene : Scene Float32) : Footprint where
  runs := outcomes.map fun o =>
    match o.result with
    | .ok report => .inl (Fingerprint.hex report.digest)
    | .error e => .inr e.message
  entities := scene.live.map fun (id, e) =>
    (e.name, ((scene.world? id).map Transform.position).getD .zero)

namespace Command

/-- The valid document in a file. -/
def load? (w : Surroundings) (name : String) : Option (Document Float32) :=
  (w.file? name).bind fun text => (Document.read text).toOption

/-- The response where a document cannot be loaded. -/
def loadFailure (name : String) : Response := .failure [] ("failed to load " ++ name)

/-- The seed of an execution. -/
def seedOf (w : Surroundings) (given : Option Nat) (d : Document Float32) : Nat :=
  (given.or d.seed).getD w.spareSeed

/-- The response to `run`. -/
def respondRun? (w : Surroundings) (name : String) (seed : Option Nat) (json : Bool) :
    Option Response :=
  match load? w name with
  | none => some (loadFailure name)
  | some d =>
    let seed := seedOf w seed d
    (d.replay? w.fuel seed).map fun (outcomes, scene) =>
      let report : ExecutionReport := ⟨name, seed, scene.live.length, outcomes⟩
      let lines := if json then [report.toJson.pretty] else report.lines
      if report.failures = 0 then .success lines
      else .failure lines (Decimal.natText report.failures ++ " of " ++
        Decimal.natText outcomes.length ++ " runs gave up")

/-- The response to `check`. -/
def respondCheck (w : Surroundings) (name : String) : Response :=
  match load? w name with
  | none => loadFailure name
  | some d =>
    .success ["ok: " ++ Decimal.natText d.rules.length ++ " rules, " ++
      Decimal.natText d.links.length ++ " links, " ++ Decimal.natText d.prefabs.length ++
      " prefabs, repeat " ++ Decimal.natText d.repetitions]

/-- The number of the first of the replays from `attempt` on that differs from the first one. -/
def firstDivergence? (w : Surroundings) (d : Document Float32) (seed : Nat) (baseline : Footprint) :
    Nat → Nat → Option (Option Nat)
  | 0, _ => some none
  | left + 1, attempt =>
    match d.replay? w.fuel seed with
    | none => none
    | some (outcomes, scene) =>
      if Footprint.of outcomes scene == baseline then
        firstDivergence? w d seed baseline left (attempt + 1)
      else some (some attempt)

/-- The first digits of the digest of the first run. -/
def digestLabel (f : Footprint) : String :=
  match f.runs with
  | .inl digest :: _ => String.ofList (digest.toList.take 16)
  | _ => "error"

/-- The response to `torture`. -/
def respondTorture? (w : Surroundings) (name : String) (runs : Nat) (seed : Option Nat) :
    Option Response :=
  if runs = 0 then some (.failure [] "--runs must be at least 1")
  else
    match load? w name with
    | none => some (loadFailure name)
    | some d =>
      let seed := seedOf w seed d
      match d.replay? w.fuel seed with
      | none => none
      | some (outcomes, scene) =>
        let baseline := Footprint.of outcomes scene
        (firstDivergence? w d seed baseline (runs - 1) 1).map fun
          | some attempt =>
            .failure [] ("run " ++ Decimal.natText attempt ++ " diverged from run 0 (seed " ++
              Decimal.natText seed ++ ")")
          | none =>
            .success ["ok: " ++ Decimal.natText runs ++ " runs agree (seed " ++
              Decimal.natText seed ++ ", digest " ++ digestLabel baseline ++ ")"]

/-- The response to a command. -/
def respond? (w : Surroundings) : Command → Option Response
  | run name seed json => respondRun? w name seed json
  | check name => some (respondCheck w name)
  | torture name runs seed => respondTorture? w name runs seed

end Command

/-- The response to a list of arguments. -/
def Response.toArguments? (w : Surroundings) (args : List String) : Option Response :=
  match Command.Request.ofArguments args with
  | .refused => some refusal
  | .help => some (success usage)
  | .version => some (success ["strata 0.1.0"])
  | .command c => c.respond? w

end SpatialGrammar
