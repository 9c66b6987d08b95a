/-
SpatialGrammar/Proofs/PassRule.lean

What is kept from symbol to symbol is kept by a pass.

A pass is one recursion over the symbols of a sentence, and every law of a pass is an
invariant of that recursion.  The induction is made here once (`PassInvariant.passFrom`):
an invariant speaks of the symbols still to be read, the next sentence so far, the object
that waits for its test, and the state, and it has to be kept by

    a method · an invalid symbol · a test that is passed · a rule · an object.

The derivation that writes a sentence anew is treated likewise (`DeriveInvariant.deriveFrom`).

What each of these changes in the state is said first.  `expand_frame`, `check_cases` and
`dispatch_cases` are all that other modules need to know about the rest of the state.
-/
import SpatialGrammar.Derivation.Run

namespace SpatialGrammar

variable {α W ρ : Type}

/-! ### What one symbol changes -/

/-- A test of the waiting object either does not take place, or is passed, or ends the pass; only
the last two are kept among the requests. -/
theorem Run.check_cases (r : Run α W) (waiting : Option SymbolId) (s : RunState W ρ) :
    ((∀ id, waiting = some id → (s.arena.get id).entity = none) ∧
      r.check waiting s = (none, s)) ∨
    (∃ id entity, waiting = some id ∧ (s.arena.get id).entity = some entity ∧
      r.violates s.world entity = false ∧
      r.check waiting s = (none, s.record (.check entity false))) ∨
    (∃ id entity, waiting = some id ∧ (s.arena.get id).entity = some entity ∧
      r.violates s.world entity = true ∧
      r.check waiting s = (some id, (s.record (.check entity true)).note
        (.spatialViolation s.iteration (s.arena.get id).raw entity))) := by
  rcases waiting with - | id
  · exact .inl ⟨by simp, rfl⟩
  rcases he : (s.arena.get id).entity with - | entity
  · exact .inl ⟨by rintro _ ⟨⟩; exact he, by simp [check, he]⟩
  rcases hv : r.violates s.world entity with - | -
  · exact .inr (.inl ⟨id, entity, rfl, he, hv, by simp [check, he, hv]⟩)
  · exact .inr (.inr ⟨id, entity, rfl, he, hv, by simp [check, he, hv]; rfl⟩)

/-- What the world is told of a method: its name and arguments, the entities of the producers above
the object, and the entity of its own producer. -/
def RunState.callOf (s : RunState W ρ) (method object : SymbolId) : MethodCall :=
  ⟨(s.arena.get method).name, (s.arena.get method).args, s.arena.lineage object,
    (s.arena.get method).parent.bind fun p => (s.arena.get p).entity⟩

/-- A method without an entity to work on is at most noted.  Any other is
one request to the world. -/
theorem RunState.dispatch_callOf [World W ρ] (id : SymbolId) (target : Option SymbolId)
    (s : RunState W ρ) :
    (∃ diagnostics, s.dispatch id target = { s with diagnostics }) ∨
    (∃ object entity found world diagnostics, target = some object ∧
      (s.arena.get object).entity = some entity ∧
      World.perform ρ entity (s.callOf id object) s.world = (found, world) ∧
      s.dispatch id target = { s with
        world, diagnostics
        calls := s.calls.push (.method entity (s.callOf id object) found) }) := by
  rcases target with - | object
  · exact .inl ⟨_, rfl⟩
  rcases he : (s.arena.get object).entity with - | entity
  · exact .inl ⟨s.diagnostics, by simp [dispatch, he]⟩
  rcases hp : World.perform ρ entity (s.callOf id object) s.world with ⟨found, world⟩
  have hp' := hp
  unfold callOf at hp'
  refine .inr ⟨object, entity, found, world, if found then s.diagnostics else
    s.diagnostics.push (.methodNotFound s.iteration (s.arena.get id).raw (s.arena.get object).raw),
    rfl, he, hp, ?_⟩
  rcases found with - | - <;> simp [dispatch, he, callOf, hp', record, note]

/-- The world is told the entities of the producers above the object. -/
theorem RunState.dispatch_cases [World W ρ] (id : SymbolId) (target : Option SymbolId)
    (s : RunState W ρ) :
    (∃ diagnostics, s.dispatch id target = { s with diagnostics }) ∨
    (∃ object entity call found world diagnostics, target = some object ∧
      (s.arena.get object).entity = some entity ∧ call.lineage = s.arena.lineage object ∧
      World.perform ρ entity call s.world = (found, world) ∧
      s.dispatch id target =
        { s with world, diagnostics, calls := s.calls.push (.method entity call found) }) := by
  rcases s.dispatch_callOf id target with
    h | ⟨object, entity, found, world, diagnostics, ht, he, hp, hd⟩
  · exact .inl h
  · exact .inr ⟨object, entity, s.callOf id object, found, world, diagnostics, ht, he, rfl, hp, hd⟩

variable [Scalar α] [Numeral α] [RandomSource ρ α]

/-- Reading a text changes the source, the arena and the diagnostics, and nothing else. -/
theorem RunState.read_frame (text : String) (parent : Option SymbolId) (next : Sentence)
    (s : RunState W ρ) :
    ∃ source arena diagnostics,
      (s.read text parent next).2 = { s with source, arena, diagnostics } :=
  ⟨_, _, _, rfl⟩

/-- So does expanding a symbol. -/
theorem Run.expand_frame (r : Run α W) (id : SymbolId) (excluded : List Nat) (next : Sentence)
    (s : RunState W ρ) :
    ∃ source arena diagnostics,
      (r.expand id excluded next s).2 = { s with source, arena, diagnostics } := by
  unfold expand
  rcases r.rules.lookup (s.arena.get id).name excluded s.source with ⟨- | drawn, source⟩
  · exact ⟨_, _, _, rfl⟩
  · exact ⟨_, _, _, rfl⟩

/-! ### Invariants of a pass -/

variable [World W ρ]

/-- `I ids next waiting s` is kept by every symbol: `ids` are the symbols still to be read, `next`
is the next sentence so far, and `waiting` the object that waits for its test. -/
structure PassInvariant (r : Run α W)
    (I : List SymbolId → Sentence → Option SymbolId → RunState W ρ → Prop) : Prop where
  method : ∀ {id rest next waiting s}, (s.arena.get id).kind = .method →
    I (id :: rest) next waiting s → I rest next waiting (s.dispatch id waiting)
  invalid : ∀ {id rest next waiting s}, (s.arena.get id).kind = .invalid →
    I (id :: rest) next waiting s → I rest next waiting s
  check : ∀ {ids next waiting s}, (r.check waiting s).1 = none →
    I ids next waiting s → I ids next none (r.check waiting s).2
  rule : ∀ {id rest next s}, (s.arena.get id).kind = .rule →
    I (id :: rest) next none s → I rest (r.expand id [] next s).1 none (r.expand id [] next s).2
  object : ∀ {id rest next s}, (s.arena.get id).kind = .object →
    I (id :: rest) next none s →
    I rest (r.expand id [] next (s.spawn id)).1 (some id) (r.expand id [] next (s.spawn id)).2

omit [Scalar α] [Numeral α] [RandomSource ρ α] [World W ρ] in
/-- A test leaves the arena alone. -/
theorem Run.check_arena (r : Run α W) (waiting : Option SymbolId) (s : RunState W ρ) :
    (r.check waiting s).2.arena = s.arena := by
  rcases r.check_cases waiting s with ⟨-, h⟩ | ⟨_, _, -, -, -, h⟩ | ⟨_, _, -, -, -, h⟩ <;> rw [h]
  · rfl
  · rfl

/-- How an invariant comes out of a pass: it holds at the end of a completed one, and right before
the test by which another one fails. -/
def PassResult.Keeps (r : Run α W)
    (I : List SymbolId → Sentence → Option SymbolId → RunState W ρ → Prop) : PassResult W ρ → Prop
  | .completed next s => I [] next none s
  | .violated symbol s =>
    ∃ rest next₀ waiting s₀, I rest next₀ waiting s₀ ∧ r.check waiting s₀ = (some symbol, s)

/-- The state with which a pass ends. -/
@[simp] def PassResult.state : PassResult W ρ → RunState W ρ
  | .completed _ s => s
  | .violated _ s => s

/-- **The rule of passes.**  What every symbol keeps is kept by the pass. -/
theorem PassInvariant.passFrom {r : Run α W}
    {I : List SymbolId → Sentence → Option SymbolId → RunState W ρ → Prop}
    (hI : PassInvariant r I) {ids : List SymbolId} {next : Sentence} {waiting : Option SymbolId}
    {s : RunState W ρ} (h : I ids next waiting s) :
    (r.passFrom ids next waiting s).Keeps r I := by
  induction ids generalizing next waiting s with
  | nil =>
    rcases hc : r.check waiting s with ⟨- | symbol, t⟩
    · simp only [Run.passFrom, hc]
      have ht : I [] next none t := by simpa [hc] using hI.check (by simp [hc]) h
      exact ht
    · simp only [Run.passFrom, hc]
      exact ⟨[], next, waiting, s, h, hc⟩
  | cons id rest ih =>
    rcases hk : (s.arena.get id).kind with - | - | - | -
    · -- a rule
      rcases hc : r.check waiting s with ⟨- | symbol, t⟩
      · have ht : I (id :: rest) next none t := by simpa [hc] using hI.check (by simp [hc]) h
        have ha : t.arena = s.arena := by simpa [hc] using r.check_arena waiting s
        simp only [Run.passFrom, hk, hc]
        exact ih (hI.rule (by rw [ha, hk]) ht)
      · simp only [Run.passFrom, hk, hc]
        exact ⟨id :: rest, next, waiting, s, h, hc⟩
    · -- an object
      rcases hc : r.check waiting s with ⟨- | symbol, t⟩
      · have ht : I (id :: rest) next none t := by simpa [hc] using hI.check (by simp [hc]) h
        have ha : t.arena = s.arena := by simpa [hc] using r.check_arena waiting s
        simp only [Run.passFrom, hk, hc]
        exact ih (hI.object (by rw [ha, hk]) ht)
      · simp only [Run.passFrom, hk, hc]
        exact ⟨id :: rest, next, waiting, s, h, hc⟩
    · simp only [Run.passFrom, hk]
      exact ih (hI.method hk h)
    · simp only [Run.passFrom, hk]
      exact ih (hI.invalid hk h)

/-- The whole pass over the current sentence. -/
theorem PassInvariant.pass {r : Run α W}
    {I : List SymbolId → Sentence → Option SymbolId → RunState W ρ → Prop}
    (hI : PassInvariant r I) {s : RunState W ρ}
    (h : I s.current.symbols.toList .empty none { s with spawnedThisPass := #[] }) :
    (r.pass s).Keeps r I :=
  hI.passFrom h

/-- A property of states that every symbol keeps, and the test that ends a pass too,
holds at the end of a pass. -/
theorem PassInvariant.state {r : Run α W} {J : RunState W ρ → Prop}
    (hJ : PassInvariant r fun _ _ _ s => J s)
    (hcheck : ∀ waiting s, J s → J (r.check waiting s).2) {s : RunState W ρ}
    (h : J { s with spawnedThisPass := #[] }) : J (r.pass s).state := by
  have hk := hJ.pass h
  rcases hp : r.pass s with ⟨next, t⟩ | ⟨symbol, t⟩ <;> rw [hp] at hk
  · exact hk
  · obtain ⟨_, _, waiting, u, hu, hc⟩ := hk
    have ht := hcheck waiting u hu
    rwa [hc] at ht

/-- A pass does not touch the sentences, the exclusions, the counters and the records. -/
theorem Run.pass_frame (r : Run α W) (s : RunState W ρ) :
    ∃ world source arena spawnedThisPass awaiting diagnostics calls, (r.pass s).state =
      { s with world, source, arena, spawnedThisPass, awaiting, diagnostics, calls } := by
  let J (t : RunState W ρ) : Prop :=
    ∃ world source arena spawnedThisPass awaiting diagnostics calls, t =
      { s with world, source, arena, spawnedThisPass, awaiting, diagnostics, calls }
  have hcheck (waiting : Option SymbolId) (t : RunState W ρ) (ht : J t) :
      J (r.check waiting t).2 := by
    rcases r.check_cases waiting t with ⟨-, h⟩ | ⟨_, _, -, -, -, h⟩ | ⟨_, _, -, -, -, h⟩ <;>
      rw [h] <;> obtain ⟨_, _, _, _, _, _, _, rfl⟩ := ht <;> exact ⟨_, _, _, _, _, _, _, rfl⟩
  have hJ : PassInvariant r fun _ _ _ t => J t := by
    refine ⟨?_, fun _ h => h, fun _ h => hcheck _ _ h, ?_, ?_⟩
    · intro id rest next waiting t _ ht
      rcases t.dispatch_cases id waiting with ⟨_, h⟩ | ⟨_, _, _, _, _, _, -, -, -, -, h⟩ <;>
        rw [h] <;> obtain ⟨_, _, _, _, _, _, _, rfl⟩ := ht <;> exact ⟨_, _, _, _, _, _, _, rfl⟩
    · intro id rest next t _ ht
      obtain ⟨_, _, _, h⟩ := r.expand_frame id [] next t
      rw [h]
      obtain ⟨_, _, _, _, _, _, _, rfl⟩ := ht
      exact ⟨_, _, _, _, _, _, _, rfl⟩
    · intro id rest next t _ ht
      obtain ⟨_, _, _, h⟩ := r.expand_frame id [] next (t.spawn id)
      rw [h]
      obtain ⟨_, _, _, _, _, _, _, rfl⟩ := ht
      exact ⟨_, _, _, _, _, _, _, rfl⟩
  exact hJ.state hcheck ⟨_, _, _, _, _, _, _, rfl⟩

theorem Run.pass_current (r : Run α W) (s : RunState W ρ) :
    (r.pass s).state.current = s.current := by
  obtain ⟨_, _, _, _, _, _, _, h⟩ := r.pass_frame s
  rw [h]

theorem Run.pass_previous (r : Run α W) (s : RunState W ρ) :
    (r.pass s).state.previous = s.previous := by
  obtain ⟨_, _, _, _, _, _, _, h⟩ := r.pass_frame s
  rw [h]

theorem Run.pass_exclusions (r : Run α W) (s : RunState W ρ) :
    (r.pass s).state.exclusions = s.exclusions := by
  obtain ⟨_, _, _, _, _, _, _, h⟩ := r.pass_frame s
  rw [h]

theorem Run.pass_attempts (r : Run α W) (s : RunState W ρ) :
    (r.pass s).state.attempts = s.attempts := by
  obtain ⟨_, _, _, _, _, _, _, h⟩ := r.pass_frame s
  rw [h]

theorem Run.pass_recoveries (r : Run α W) (s : RunState W ρ) :
    (r.pass s).state.recoveries = s.recoveries := by
  obtain ⟨_, _, _, _, _, _, _, h⟩ := r.pass_frame s
  rw [h]

theorem Run.pass_records (r : Run α W) (s : RunState W ρ) :
    (r.pass s).state.records = s.records := by
  obtain ⟨_, _, _, _, _, _, _, h⟩ := r.pass_frame s
  rw [h]

theorem Run.pass_iteration (r : Run α W) (s : RunState W ρ) :
    (r.pass s).state.iteration = s.iteration := by
  obtain ⟨_, _, _, _, _, _, _, h⟩ := r.pass_frame s
  rw [h]

/-! ### Invariants of a derivation -/

omit [World W ρ]

/-- `I ids next s` is kept by every symbol of a sentence that is written anew. -/
structure DeriveInvariant (r : Run α W) (failed : ExclusionSet)
    (I : List SymbolId → Sentence → RunState W ρ → Prop) : Prop where
  skip : ∀ {id rest next s}, (s.arena.get id).kind.expands = false →
    I (id :: rest) next s → I rest next s
  expand : ∀ {id rest next s}, (s.arena.get id).kind.expands = true → I (id :: rest) next s →
    I rest (r.expand id (r.excludedFor failed id) next s).1
      (r.expand id (r.excludedFor failed id) next s).2

/-- **The rule of derivations.**  What every symbol keeps is kept by the derivation. -/
theorem DeriveInvariant.deriveFrom {r : Run α W} {failed : ExclusionSet}
    {I : List SymbolId → Sentence → RunState W ρ → Prop} (hI : DeriveInvariant r failed I)
    {ids : List SymbolId} {next : Sentence} {s : RunState W ρ} (h : I ids next s) :
    I [] (r.deriveFrom failed ids next s).1 (r.deriveFrom failed ids next s).2 := by
  induction ids generalizing next s with
  | nil => exact h
  | cons id rest ih =>
    rcases he : (s.arena.get id).kind.expands with - | -
    · simp only [Run.deriveFrom, he, Bool.false_eq_true, if_false]
      exact ih (hI.skip he h)
    · simp only [Run.deriveFrom, he, if_true]
      exact ih (hI.expand he h)

/-- A derivation changes the source, the arena and the diagnostics, and nothing else. -/
theorem Run.derive_frame (r : Run α W) (s : RunState W ρ) :
    ∃ source arena diagnostics, (r.derive s).2 = { s with source, arena, diagnostics } := by
  unfold derive
  split
  · exact s.read_frame r.start none .empty
  next previous hp =>
    let I (_ : List SymbolId) (_ : Sentence) (t : RunState W ρ) : Prop :=
      ∃ source arena diagnostics, t = { s with source, arena, diagnostics }
    have hI : DeriveInvariant r s.exclusions I := by
      refine ⟨fun _ h => h, ?_⟩
      rintro id rest next t - ⟨source, arena, diagnostics, rfl⟩
      exact r.expand_frame ..
    have hs : I previous.symbols.toList .empty s := ⟨_, _, _, rfl⟩
    exact hI.deriveFrom hs

end SpatialGrammar
