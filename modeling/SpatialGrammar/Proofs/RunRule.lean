/-
SpatialGrammar/Proofs/RunRule.lean

The states that a run reaches.

`Run.Reaches` is the reflexive and transitive closure of the steps that do not end the
run, so a state reached from `Run.begin` is a state in which a pass is about to begin.
A step is one of two that go on and of three that end the run (`step_again`,
`step_done`); these inversions are what every law of a run is derived from.

The first such law concerns the world alone: whatever the four requests of a run keep,
the run keeps (`WorldInvariant.run?`).
-/
import Mathlib.Logic.Relation
import SpatialGrammar.Proofs.PassRule

namespace SpatialGrammar

variable {α W ρ : Type}

/-! ### The two loops over entities -/

section Loops

variable [World W ρ]

/-- What rolling back does, field by field. -/
theorem RunState.rollBack_eq (s : RunState W ρ) :
    s.rollBack = { s with
      world := s.spawnedThisPass.toList.foldl (fun w e => World.discard ρ e w) s.world
      awaiting := s.spawnedThisPass.toList.foldl Awaiting.unsubscribe s.awaiting
      calls := s.calls ++ (s.spawnedThisPass.toList.map Call.discard).toArray
      spawnedThisPass := #[] } := by
  have fold (es : List EntityId) : ∀ t : RunState W ρ,
      es.foldl (fun t e => { t with
        world := World.discard ρ e t.world
        awaiting := t.awaiting.unsubscribe e }.record (.discard e)) t = { t with
      world := es.foldl (fun w e => World.discard ρ e w) t.world
      awaiting := es.foldl Awaiting.unsubscribe t.awaiting
      calls := t.calls ++ (es.map Call.discard).toArray } := by
    induction es with
    | nil => intro t; simp
    | cons e es ih =>
      intro t
      rw [List.foldl_cons, ih]
      simp [record]
  simp only [rollBack, ← Array.foldl_toList]
  rw [fold]

/-- What finishing does, field by field. -/
theorem RunState.finish_eq (s : RunState W ρ) :
    s.finish = (s.awaiting.pending, { s with
      world := s.awaiting.pending.foldl (fun w e => World.settle ρ e w) s.world
      awaiting := .empty
      calls := s.calls ++ (s.awaiting.pending.map Call.settle).toArray }) := by
  have fold (es : List EntityId) : ∀ t : RunState W ρ,
      es.foldl (fun t e => { t with world := World.settle ρ e t.world }.record (.settle e)) t =
        { t with
          world := es.foldl (fun w e => World.settle ρ e w) t.world
          calls := t.calls ++ (es.map Call.settle).toArray } := by
    induction es with
    | nil => intro t; simp
    | cons e es ih =>
      intro t
      rw [List.foldl_cons, ih]
      simp [record]
  simp only [finish, Awaiting.drain]
  rw [fold]

/-- A run that does not fail reports its records. -/
theorem RunState.succeed_spec (termination : Termination) (s : RunState W ρ) :
    ∃ report, (s.succeed termination).outcome = .ok report ∧ report.termination = termination ∧
      report.iterations = s.records.toList := by
  simp only [succeed, s.finish_eq]
  exact ⟨_, rfl, rfl, rfl⟩

/-- Abandoning a pass rolls it back and counts it. -/
theorem RunState.abandon_frame (s : RunState W ρ) :
    ∃ world awaiting calls, s.abandon = { s with
      world, awaiting, calls
      spawnedThisPass := #[]
      attempts := s.attempts + 1
      recoveries := s.recoveries + 1 } := by
  simp only [abandon, s.rollBack_eq]
  exact ⟨_, _, _, rfl⟩

/-- What taking back an entity keeps, abandoning a pass keeps. -/
theorem RunState.abandon_keeps {P : W → Prop} (hP : ∀ e w, P w → P (World.discard ρ e w))
    {s : RunState W ρ} (hs : P s.world) : P s.abandon.world := by
  simp only [abandon, s.rollBack_eq]
  exact List.foldlRecOn _ _ hs fun w hw e _ => hP e w hw

/-- What telling an entity of the end keeps, finishing keeps. -/
theorem RunState.finish_keeps {P : W → Prop} (hP : ∀ e w, P w → P (World.settle ρ e w))
    {s : RunState W ρ} (hs : P s.world) : P s.finish.2.world := by
  simp only [s.finish_eq]
  exact List.foldlRecOn _ _ hs fun w hw e _ => hP e w hw

end Loops

variable [Scalar α] [Numeral α] [RandomSource ρ α] [World W ρ]

/-! ### Steps -/

omit [Scalar α] [Numeral α] [RandomSource ρ α] [World W ρ] in
/-- A symbol with a producer has it blamed, with the alternative that it chose. -/
theorem RunState.blame_cases (symbol : SymbolId) (s : RunState W ρ) :
    ((s.arena.get symbol).parent = none ∧ s.blame symbol = s) ∨
    (∃ p, (s.arena.get symbol).parent = some p ∧ s.blame symbol =
      { s with exclusions := s.exclusions.record p (s.arena.get p).chosen }) := by
  rcases hp : (s.arena.get symbol).parent with - | p
  · exact .inl ⟨rfl, by simp [blame, hp]⟩
  · exact .inr ⟨p, rfl, by simp [blame, hp]⟩

omit [Scalar α] [Numeral α] [RandomSource ρ α] [World W ρ] in
/-- Blaming leaves the arena alone. -/
theorem RunState.blame_arena (symbol : SymbolId) (s : RunState W ρ) :
    (s.blame symbol).arena = s.arena := by
  rcases s.blame_cases symbol with ⟨-, h⟩ | ⟨_, -, h⟩ <;> rw [h]

omit [World W ρ] in
/-- Blaming changes the exclusions, and writing the sentence anew changes what a derivation changes
and the sentence. -/
theorem Run.retry_frame (r : Run α W) (symbol : SymbolId) (s : RunState W ρ) :
    ∃ source arena diagnostics exclusions current,
      r.retry symbol s = { s with source, arena, diagnostics, exclusions, current } := by
  have hb : ∃ exclusions, s.blame symbol = { s with exclusions } := by
    rcases s.blame_cases symbol with ⟨-, h⟩ | ⟨p, -, h⟩
    · exact ⟨s.exclusions, h⟩
    · exact ⟨_, h⟩
  obtain ⟨exclusions, hb⟩ := hb
  obtain ⟨source, arena, diagnostics, hd⟩ := r.derive_frame (s.blame symbol)
  refine ⟨source, arena, diagnostics, exclusions, (r.derive (s.blame symbol)).1, ?_⟩
  simp only [retry, hd]
  rw [hb]

omit [World W ρ] in
/-- The exclusions of the next attempt are those by which its sentence is written. -/
theorem Run.retry_exclusions (r : Run α W) (symbol : SymbolId) (s : RunState W ρ) :
    (r.retry symbol s).exclusions = (s.blame symbol).exclusions := by
  obtain ⟨_, _, _, hd⟩ := r.derive_frame (s.blame symbol)
  simp only [retry, hd]

omit [World W ρ] in
/-- So is the sentence before. -/
theorem Run.retry_previous (r : Run α W) (symbol : SymbolId) (s : RunState W ρ) :
    (r.retry symbol s).previous = (s.blame symbol).previous := by
  obtain ⟨_, _, _, hd⟩ := r.derive_frame (s.blame symbol)
  simp only [retry, hd]

/-- Between a pass that failed and the next attempt the arena stays as it is. -/
theorem RunState.blame_abandon_arena (symbol : SymbolId) (s : RunState W ρ) :
    (s.abandon.blame symbol).arena = s.arena := by
  obtain ⟨_, _, _, ha⟩ := s.abandon_frame
  rw [blame_arena, ha]

/-- Another attempt stays with the sentence before, the records and the iteration, and counts. -/
theorem Run.retry_of_violated {r : Run α W} {s s' : RunState W ρ} {symbol : SymbolId}
    (hp : r.pass s = .violated symbol s') :
    (r.retry symbol s'.abandon).previous = s.previous ∧
      (r.retry symbol s'.abandon).records = s.records ∧
      (r.retry symbol s'.abandon).iteration = s.iteration ∧
      (r.retry symbol s'.abandon).attempts = s.attempts + 1 := by
  obtain ⟨_, _, _, ha⟩ := s'.abandon_frame
  obtain ⟨_, _, _, _, _, hr⟩ := r.retry_frame symbol s'.abandon
  rw [hr, ha]
  refine ⟨?_, ?_, ?_, ?_⟩
  · simpa [hp] using r.pass_previous s
  · simpa [hp] using r.pass_records s
  · simpa [hp] using r.pass_iteration s
  · simpa [hp] using r.pass_attempts s

/-- The run comes from the first state to the second in some number of steps. -/
def Run.Reaches (r : Run α W) : RunState W ρ → RunState W ρ → Prop :=
  Relation.ReflTransGen fun s t => r.step s = .again t

/-- Whether the run goes on after the next step. -/
def Run.goesOn (r : Run α W) (s : RunState W ρ) : Bool :=
  match r.step s with
  | .again _ => true
  | .done _ => false

/-- The state after the next step; the state itself if the run ends. -/
def Run.next (r : Run α W) (s : RunState W ρ) : RunState W ρ :=
  match r.step s with
  | .again t => t
  | .done _ => s

theorem Run.step_eq_next {r : Run α W} {s : RunState W ρ} (h : r.goesOn s = true) :
    r.step s = .again (r.next s) := by
  unfold goesOn at h
  unfold next
  split at h
  · next ht => rw [ht]
  · cases h

/-- A run that goes on reaches its next state. -/
theorem Run.Reaches.next {r : Run α W} {s t : RunState W ρ} (h : r.Reaches s t)
    (hgoes : r.goesOn t = true) : r.Reaches s (r.next t) :=
  h.tail (step_eq_next hgoes)

/-- A step that goes on commits a completed pass, or takes a failed one back and writes the sentence
anew. -/
theorem Run.step_again {r : Run α W} {s t : RunState W ρ} (h : r.step s = .again t) :
    (∃ next s', r.pass s = .completed next s' ∧ next.isEmpty = false ∧ t = s'.commit next) ∨
    (∃ symbol s', r.pass s = .violated symbol s' ∧ t = r.retry symbol s'.abandon) := by
  unfold step at h
  split at h
  · split at h
    · next next s' hp =>
      unfold afterCompletion at h
      dsimp only at h
      split at h
      · cases h
      next he => exact .inl ⟨next, s', hp, by simpa using he, (Step.again.inj h).symm⟩
    · next symbol s' hp =>
      unfold afterViolation at h
      dsimp only at h
      split at h
      · cases h
      · exact .inr ⟨symbol, s', hp, (Step.again.inj h).symm⟩
  · cases h

/-- Where the run goes on, another iteration was allowed. -/
theorem Run.allows_of_again {r : Run α W} {s t : RunState W ρ} (h : r.step s = .again t) :
    r.settings.budget.allows s.iteration = true := by
  unfold step at h
  split at h
  · assumption
  · cases h

/-- Where the run goes on, the iteration has not failed too often. -/
theorem Run.attempts_le_of_again {r : Run α W} {s t : RunState W ρ} (h : r.step s = .again t) :
    t.attempts ≤ r.settings.maxRecovery := by
  unfold step at h
  split at h
  · split at h
    · unfold afterCompletion at h
      dsimp only at h
      split at h
      · cases h
      · obtain rfl := Step.again.inj h
        exact Nat.zero_le _
    · next symbol s' _ =>
      unfold afterViolation at h
      dsimp only at h
      split at h
      · cases h
      next hle =>
        obtain rfl := Step.again.inj h
        obtain ⟨_, _, _, _, _, hr⟩ := r.retry_frame symbol s'.abandon
        rw [hr]
        exact Nat.le_of_not_lt hle
  · cases h

/-- A step ends the run when the budget is exhausted, when a completed pass leaves nothing to read,
or when too many passes have failed. -/
theorem Run.step_done {r : Run α W} {s : RunState W ρ} {f : Finished W ρ}
    (h : r.step s = .done f) :
    (r.settings.budget.allows s.iteration = false ∧ f = s.succeed .budgetExhausted) ∨
    (∃ next s', r.settings.budget.allows s.iteration = true ∧ r.pass s = .completed next s' ∧
      next.isEmpty = true ∧ f = (s'.commit next).succeed .converged) ∨
    (∃ symbol s', r.settings.budget.allows s.iteration = true ∧ r.pass s = .violated symbol s' ∧
      f = s'.abandon.giveUp symbol) := by
  unfold step at h
  split at h
  · next hb =>
    split at h
    · next next s' hp =>
      unfold afterCompletion at h
      dsimp only at h
      split at h
      · next he => exact .inr (.inl ⟨next, s', hb, hp, he, (Step.done.inj h).symm⟩)
      · cases h
    · next symbol s' hp =>
      unfold afterViolation at h
      dsimp only at h
      split at h
      · exact .inr (.inr ⟨symbol, s', hb, hp, (Step.done.inj h).symm⟩)
      · cases h
  · next hb => exact .inl ⟨by simpa using hb, (Step.done.inj h).symm⟩

/-- A run that ends reaches a state from which a step ends it. -/
theorem Run.reaches_of_runFrom? {r : Run α W} {fuel : Nat} {s : RunState W ρ} {f : Finished W ρ}
    (h : r.runFrom? fuel s = some f) : ∃ t, r.Reaches s t ∧ r.step t = .done f := by
  induction fuel generalizing s with
  | zero => cases h
  | succ fuel ih =>
    unfold runFrom? at h
    split at h
    · next hs => exact ⟨s, .refl, by rw [hs]; exact congrArg Step.done (Option.some.inj h)⟩
    · next u hs =>
      obtain ⟨t, hr, ht⟩ := ih h
      exact ⟨t, .head hs hr, ht⟩

/-- Likewise for the run of a starting text. -/
theorem Run.reaches_of_run? {r : Run α W} {fuel : Nat} {w : W} {source : ρ} {f : Finished W ρ}
    (h : r.run? fuel w source = some f) :
    ∃ t, r.Reaches (r.begin w source) t ∧ r.step t = .done f :=
  reaches_of_runFrom? h

/-- Whatever state a run has come to, it ends as it does from there. -/
theorem Run.Reaches.runFrom? {r : Run α W} {s t : RunState W ρ} (h : r.Reaches s t) {fuel : Nat}
    {f : Finished W ρ} (hf : r.runFrom? fuel s = some f) : ∃ k, r.runFrom? k t = some f := by
  induction h with
  | refl => exact ⟨fuel, hf⟩
  | @tail t u _ hstep ih =>
    obtain ⟨k, hk⟩ := ih
    cases k with
    | zero => cases hk
    | succ k =>
      simp only [Run.runFrom?, hstep] at hk
      exact ⟨k, hk⟩

/-- A run that comes to a step that ends it ends so, given steps enough. -/
theorem Run.Reaches.ends {r : Run α W} {s t : RunState W ρ} (h : r.Reaches s t) {f : Finished W ρ}
    (hdone : r.step t = .done f) : ∃ fuel, r.runFrom? fuel s = some f := by
  induction h using Relation.ReflTransGen.head_induction_on with
  | refl => exact ⟨1, by simp only [Run.runFrom?, hdone]⟩
  | head hstep _ ih =>
    obtain ⟨fuel, hfuel⟩ := ih
    exact ⟨fuel + 1, by simp only [Run.runFrom?, hstep, hfuel]⟩

/-- However many steps are allowed, a run ends in one way only. -/
theorem Run.runFrom?_unique {r : Run α W} {fuel fuel' : Nat} {s : RunState W ρ}
    {f f' : Finished W ρ} (h : r.runFrom? fuel s = some f) (h' : r.runFrom? fuel' s = some f') :
    f = f' := by
  obtain ⟨t, ht, hdone⟩ := reaches_of_runFrom? h
  obtain ⟨k, hk⟩ := ht.runFrom? h'
  cases k with
  | zero => cases hk
  | succ k =>
    simp only [runFrom?, hdone] at hk
    exact Option.some.inj hk

/-- **A run ends if with every step there is less left.** -/
theorem Run.exists_runFrom? {r : Run α W} {I : RunState W ρ → Prop} {left : RunState W ρ → Nat}
    (hstep : ∀ {s t}, I s → r.step s = .again t → I t ∧ left t < left s) {fuel : Nat}
    {s : RunState W ρ} (hs : I s) (hfuel : left s < fuel) :
    ∃ f t, r.runFrom? fuel s = some f ∧ I t ∧ r.step t = .done f := by
  induction fuel generalizing s with
  | zero => exact absurd hfuel (Nat.not_lt_zero _)
  | succ fuel ih =>
    unfold runFrom?
    rcases ht : r.step s with t | f
    · obtain ⟨hI, hlt⟩ := hstep hs ht
      exact ih hI (Nat.lt_of_lt_of_le hlt (Nat.le_of_lt_succ hfuel))
    · exact ⟨f, s, rfl, hs, ht⟩

/-! ### What the world keeps -/

omit [Scalar α] [Numeral α] [RandomSource ρ α] [World W ρ] in
/-- A test leaves the world alone. -/
theorem Run.check_world (r : Run α W) (waiting : Option SymbolId) (s : RunState W ρ) :
    (r.check waiting s).2.world = s.world := by
  rcases r.check_cases waiting s with ⟨-, h⟩ | ⟨_, _, -, -, -, h⟩ | ⟨_, _, -, -, -, h⟩ <;> rw [h]
  · rfl
  · rfl

/-- What spawning and methods keep, every symbol keeps. -/
theorem PassInvariant.world {r : Run α W} {P : W → Prop}
    (hspawn : ∀ request {w} (source : ρ), P w → P (World.spawn request w source).2.1)
    (hperform : ∀ entity call {w}, P w → P (World.perform ρ entity call w).2) :
    PassInvariant r fun _ _ _ (s : RunState W ρ) => P s.world where
  method := by
    intro id rest next waiting s _ hs
    rcases s.dispatch_cases id waiting with ⟨_, h⟩ | ⟨_, e, call, _, _, _, -, -, -, hp, h⟩
    · rw [h]; exact hs
    · rw [h]; simpa [hp] using hperform e call hs
  invalid := fun _ hs => hs
  check := by
    intro ids next waiting s _ hs
    rwa [r.check_world]
  rule := by
    intro id rest next s _ hs
    obtain ⟨_, _, _, h⟩ := r.expand_frame id [] next s
    rw [h]; exact hs
  object := by
    intro id rest next s _ hs
    obtain ⟨_, _, _, h⟩ := r.expand_frame id [] next (s.spawn id)
    rw [h]; exact hspawn _ _ hs

/-- So a pass keeps it. -/
theorem Run.pass_keeps {r : Run α W} {P : W → Prop}
    (hspawn : ∀ request {w} (source : ρ), P w → P (World.spawn request w source).2.1)
    (hperform : ∀ entity call {w}, P w → P (World.perform ρ entity call w).2) {s : RunState W ρ}
    (hs : P s.world) : P (r.pass s).state.world :=
  (PassInvariant.world hspawn hperform).state
    (fun waiting t ht => by rwa [r.check_world waiting t]) hs

/-- A property of worlds that every request of a run keeps. -/
structure WorldInvariant (ρ : Type) [World W ρ] (P : W → Prop) : Prop where
  spawn : ∀ request {w} (source : ρ), P w → P (World.spawn request w source).2.1
  perform : ∀ entity call {w}, P w → P (World.perform ρ entity call w).2
  discard : ∀ entity {w}, P w → P (World.discard ρ entity w)
  settle : ∀ entity {w}, P w → P (World.settle ρ entity w)

namespace WorldInvariant

variable {P : W → Prop} (hP : WorldInvariant ρ P) {r : Run α W}
include hP

theorem pass {s : RunState W ρ} (hs : P s.world) : P (r.pass s).state.world :=
  Run.pass_keeps hP.spawn hP.perform hs

omit [Scalar α] [Numeral α] [RandomSource ρ α] in
theorem abandon {s : RunState W ρ} (hs : P s.world) : P s.abandon.world :=
  RunState.abandon_keeps (fun e _ hw => hP.discard e hw) hs

omit [Scalar α] [Numeral α] [RandomSource ρ α] in
theorem finish {s : RunState W ρ} (hs : P s.world) : P s.finish.2.world :=
  RunState.finish_keeps (fun e _ hw => hP.settle e hw) hs

theorem again {s t : RunState W ρ} (hs : P s.world) (h : r.step s = .again t) : P t.world := by
  rcases Run.step_again h with ⟨next, s', hp, -, rfl⟩ | ⟨symbol, s', hp, rfl⟩
  · have hs' : P s'.world := by simpa [hp] using hP.pass (r := r) hs
    exact hs'
  · obtain ⟨_, _, _, _, _, hr⟩ := r.retry_frame symbol s'.abandon
    have hs' : P s'.world := by simpa [hp] using hP.pass (r := r) hs
    rw [hr]
    exact hP.abandon hs'

theorem done {s : RunState W ρ} {f : Finished W ρ} (hs : P s.world) (h : r.step s = .done f) :
    P f.world := by
  rcases Run.step_done h with ⟨-, rfl⟩ | ⟨next, s', -, hp, -, rfl⟩ | ⟨symbol, s', -, hp, rfl⟩
  · exact hP.finish hs
  · have hs' : P s'.world := by simpa [hp] using hP.pass (r := r) hs
    exact hP.finish hs'
  · have hs' : P s'.world := by simpa [hp] using hP.pass (r := r) hs
    exact hP.finish (hP.abandon hs')

theorem reaches {s t : RunState W ρ} (hr : r.Reaches s t) (hs : P s.world) : P t.world := by
  induction hr with
  | refl => exact hs
  | tail _ hstep ih => exact hP.again ih hstep

/-- **What every request keeps, a run keeps.** -/
theorem run? {fuel : Nat} {w : W} {source : ρ} {f : Finished W ρ} (hw : P w)
    (h : r.run? fuel w source = some f) : P f.world := by
  obtain ⟨t, hr, ht⟩ := Run.reaches_of_run? h
  have hb : P (r.begin w source).world := hw
  exact hP.done (hP.reaches hr hb) ht

end WorldInvariant

end SpatialGrammar
