/-
SpatialGrammar/Document/Execution.lean

Executing a document.

The grammar is run as often as the document says, all runs in one scene, each below a
holder of its own.  When a run has ended its holder is moved to a point drawn from the
scatter area, if there is one.  A run that gave up does not keep the next one from
being made.
-/
import SpatialGrammar.Document.Basic
import SpatialGrammar.Derivation.Run
import SpatialGrammar.Scene.Confinement

namespace SpatialGrammar

/-- What became of one run. -/
structure RunOutcome where
  /-- The holder of what the run made, if it made anything. -/
  holder : Option EntityId
  result : Except RecoveryExhausted Report

variable {α ρ : Type} [Scalar α]

/-- A point drawn from the area, axis by axis. -/
def ScatterArea.sample [RandomSource ρ α] (a : ScatterArea α) (s : ρ) : Vec3 α × ρ :=
  let (x, s) := RandomSource.nextBetween a.origin.x (a.origin.x + a.size.x) s
  let (y, s) := RandomSource.nextBetween a.origin.y (a.origin.y + a.size.y) s
  let (z, s) := RandomSource.nextBetween a.origin.z (a.origin.z + a.size.z) s
  (⟨x, y, z⟩, s)

namespace Document

/-- The scene of a document before its first run. -/
def buildScene (d : Document α) : Scene α :=
  .empty (.ofList d.prefabs) (.ofList d.links) (d.spawnOrigin?.getD .zero)

/-- The run of a document. -/
def run (d : Document α) : Run α (Scene α) where
  rules := .ofList d.rules
  settings := d.settings
  start := d.start
  violates := match d.region? with
    | some r => Scene.violates r
    | none => fun _ _ => false

/-- Moves the holder of a run to a point drawn from the scatter area. -/
def scatterHolder [RandomSource ρ α] (d : Document α) (holder : Option EntityId) (s : Scene α)
    (source : ρ) : Scene α × ρ :=
  match d.scatter, holder with
  | some area, some h =>
    let (target, source) := area.sample source
    match s.world? h with
    | some world => (s.setWorld h { world with position := target }, source)
    | none => (s, source)
  | _, _ => (s, source)

/-- Scattering moves the holder within its frame, or does nothing. -/
theorem scatterHolder_cases [RandomSource ρ α] (d : Document α) (holder : Option EntityId)
    (s : Scene α) (source : ρ) :
    (d.scatterHolder holder s source).1 = s ∨ ∃ h pose, holder = some h ∧
      (d.scatterHolder holder s source).1 = s.setPose h pose := by
  unfold scatterHolder
  split
  · dsimp only
    split
    · exact .inr ⟨_, _, rfl, rfl⟩
    · exact .inl rfl
  · exact .inl rfl

variable [Numeral α] [RandomSource ρ α]

/-- Makes one run, if it ends within `fuel` steps. -/
def runOnce? (d : Document α) (fuel : Nat) (s : Scene α) (source : ρ) :
    Option (RunOutcome × Scene α × ρ) :=
  (d.run.run? fuel s.beginRun source).map fun f =>
    let (holder, s) := f.world.finishRun
    let (s, source) := d.scatterHolder holder s f.source
    (⟨holder, f.outcome⟩, s, source)

/-- A run is made in the scene without a holder, and then its holder is scattered. -/
theorem exists_of_runOnce? {d : Document α} {fuel : Nat} {s t : Scene α} {source source' : ρ}
    {outcome : RunOutcome} (h : d.runOnce? fuel s source = some (outcome, t, source')) :
    ∃ f, d.run.run? fuel s.beginRun source = some f ∧ outcome = ⟨f.world.holder, f.outcome⟩ ∧
      d.scatterHolder f.world.holder f.world.finishRun.2 f.source = (t, source') := by
  obtain ⟨f, hf, heq⟩ := Option.map_eq_some_iff.mp h
  obtain ⟨rfl, hscattered⟩ := Prod.mk.inj heq
  exact ⟨f, hf, rfl, hscattered⟩

/-- Makes the given number of runs, if each ends within `fuel` steps. -/
def runTimes? (d : Document α) (fuel : Nat) : Nat → Scene α → ρ →
    Option (List RunOutcome × Scene α × ρ)
  | 0, s, source => some ([], s, source)
  | n + 1, s, source =>
    match d.runOnce? fuel s source with
    | none => none
    | some (outcome, s, source) =>
      (runTimes? d fuel n s source).map fun (outcomes, s, source) =>
        (outcome :: outcomes, s, source)

/-- Several runs are one run and then the others. -/
theorem exists_of_runTimes?_succ {d : Document α} {fuel n : Nat} {s t : Scene α}
    {source source' : ρ} {outcomes : List RunOutcome}
    (h : d.runTimes? fuel (n + 1) s source = some (outcomes, t, source')) :
    ∃ outcome rest u source₁, outcomes = outcome :: rest ∧
      d.runOnce? fuel s source = some (outcome, u, source₁) ∧
      d.runTimes? fuel n u source₁ = some (rest, t, source') := by
  unfold runTimes? at h
  split at h
  · cases h
  next outcome u source₁ hu =>
  obtain ⟨⟨rest, t', source₂⟩, hrest, heq⟩ := Option.map_eq_some_iff.mp h
  obtain ⟨rfl, rfl, rfl⟩ : outcome :: rest = outcomes ∧ t' = t ∧ source₂ = source' := by
    simpa using heq
  exact ⟨outcome, rest, u, source₁, rfl, hu, hrest⟩

/-- Executes a document in a scene, if each run ends within `fuel` steps. -/
def execute? (d : Document α) (fuel : Nat) (s : Scene α) (source : ρ) :
    Option (List RunOutcome × Scene α × ρ) :=
  d.runTimes? fuel d.repetitions s source

end Document

end SpatialGrammar
