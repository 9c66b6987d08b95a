/-
SpatialGrammar/Proofs/Noting.lean

What a run notices.

Diagnostics are only ever added, each with the number of the present iteration.  `Noted`
says so of two states and counts the violations among what was added.  A pass that fails
notes one violation, by the test that ends it, and nothing else does
(`Run.pass_noted`, `Run.derive_noted`).
-/
import SpatialGrammar.Proofs.Lifecycle
import SpatialGrammar.Proofs.Writing

namespace SpatialGrammar

variable {α W ρ : Type}

/-- Whether an event is that an entity violates the space. -/
def Diagnostic.isViolation : Diagnostic → Bool
  | spatialViolation .. => true
  | parse .. | methodNotFound .. | methodPlacementOrder .. => false

/-- The state `t` is in the iteration of `s` and has noted more: events of this iteration, of which
the given number are violations. -/
def Noted (s : RunState W ρ) (violations : Nat) (t : RunState W ρ) : Prop :=
  t.iteration = s.iteration ∧ ∃ noted, t.diagnostics.toList = s.diagnostics.toList ++ noted ∧
    (∀ d ∈ noted, d.iteration = s.iteration) ∧ noted.countP Diagnostic.isViolation = violations

namespace Noted

variable {s t u : RunState W ρ} {j k : Nat}

/-- Nothing more is noted where the diagnostics are left alone. -/
theorem of_eq (hiteration : t.iteration = s.iteration)
    (hdiagnostics : t.diagnostics = s.diagnostics) : Noted s 0 t :=
  ⟨hiteration, [], by simp [hdiagnostics], by simp, rfl⟩

theorem trans (h : Noted s j t) (h' : Noted t k u) : Noted s (j + k) u := by
  obtain ⟨hst, xs, hxs, hxsi, rfl⟩ := h
  obtain ⟨htu, ys, hys, hysi, rfl⟩ := h'
  refine ⟨htu.trans hst, xs ++ ys, ?_, ?_, List.countP_append⟩
  · rw [hys, hxs, List.append_assoc]
  · exact List.forall_mem_append.mpr ⟨hxsi, fun d hd => (hysi d hd).trans hst⟩

/-- One event more. -/
theorem note (s : RunState W ρ) {d : Diagnostic} (hd : d.iteration = s.iteration) :
    Noted s (if d.isViolation then 1 else 0) (s.note d) := by
  refine ⟨rfl, [d], Array.toList_push, by simpa using hd, ?_⟩
  rw [List.countP_singleton]

end Noted

section Symbols

variable [Scalar α] [Numeral α] [RandomSource ρ α]

/-- Reading a text notes its faults. -/
theorem RunState.read_noted (text : String) (parent : Option SymbolId) (next : Sentence)
    (s : RunState W ρ) : Noted s 0 (s.read text parent next).2 := by
  refine ⟨rfl, (parse text s.source).1.errors.map (Diagnostic.parse s.iteration), ?_, ?_, ?_⟩
  · simp [read]
  · intro d hd
    obtain ⟨_, -, rfl⟩ := List.mem_map.mp hd
    rfl
  · refine List.countP_eq_zero.mpr fun d hd => ?_
    obtain ⟨_, -, rfl⟩ := List.mem_map.mp hd
    exact Bool.false_ne_true

/-- Expanding a symbol notes the faults of the text that was drawn. -/
theorem Run.expand_noted (r : Run α W) (id : SymbolId) (excluded : List Nat) (next : Sentence)
    (s : RunState W ρ) : Noted s 0 (r.expand id excluded next s).2 := by
  unfold expand
  rcases r.rules.lookup (s.arena.get id).name excluded s.source with ⟨- | drawn, source⟩
  · exact .of_eq rfl rfl
  · exact RunState.read_noted drawn.template (some id) next { s with
      source
      arena := s.arena.setChosen id (some drawn.index) }

omit [Scalar α] [Numeral α] [RandomSource ρ α] in
/-- A method that comes too early or does not exist is noted. -/
theorem RunState.dispatch_noted [World W ρ] (id : SymbolId) (target : Option SymbolId)
    (s : RunState W ρ) : Noted s 0 (s.dispatch id target) := by
  unfold dispatch
  dsimp only
  split
  · exact .note s rfl
  · split
    · exact .of_eq rfl rfl
    · split
      · exact .of_eq rfl rfl
      · exact Noted.trans (.of_eq rfl rfl) (.note _ rfl)

/-- Writing a sentence anew notes the faults of the texts that were drawn. -/
theorem Run.derive_noted (r : Run α W) (s : RunState W ρ) : Noted s 0 (r.derive s).2 := by
  unfold derive
  split
  · exact s.read_noted r.start none .empty
  next previous _ =>
    have hI : DeriveInvariant r s.exclusions fun _ _ t => Noted s 0 t :=
      ⟨fun _ h => h, fun _ h => h.trans (r.expand_noted ..)⟩
    have hs : Noted s 0 s := .of_eq rfl rfl
    exact hI.deriveFrom hs

/-- So does another attempt. -/
theorem Run.retry_noted (r : Run α W) (symbol : SymbolId) (s : RunState W ρ) :
    Noted s 0 (r.retry symbol s) := by
  have hblamed : Noted s 0 (s.blame symbol) := by
    rcases s.blame_cases symbol with ⟨-, h⟩ | ⟨_, -, h⟩ <;> rw [h] <;> exact .of_eq rfl rfl
  exact (hblamed.trans (r.derive_noted _)).trans (.of_eq rfl rfl)

/-! ### Passes -/

variable [World W ρ]

/-- What is kept from symbol to symbol: no violation has been noted, and what waits is an object. -/
structure Noting (s₀ : RunState W ρ) (waiting : Option SymbolId) (s : RunState W ρ) : Prop where
  noted : Noted s₀ 0 s
  object : ∀ id, waiting = some id → (s.arena.get id).kind = .object

theorem Noting.passInvariant (r : Run α W) (s₀ : RunState W ρ) :
    PassInvariant r fun _ _ waiting s => Noting s₀ waiting s where
  method := by
    intro id rest next waiting s _ h
    refine ⟨h.noted.trans (s.dispatch_noted id waiting), ?_⟩
    rcases s.dispatch_cases id waiting with ⟨_, hd⟩ | ⟨_, _, _, _, _, _, -, -, -, -, hd⟩ <;>
      rw [hd] <;> exact h.object
  invalid := fun _ h => h
  check := by
    intro ids next waiting s hnone h
    rcases r.check_cases waiting s with ⟨-, hc⟩ | ⟨_, _, -, -, -, hc⟩ | ⟨_, _, -, -, -, hc⟩
    · rw [hc]
      exact ⟨h.noted, by simp⟩
    · rw [hc]
      exact ⟨h.noted.trans (.of_eq rfl rfl), by simp⟩
    · rw [hc] at hnone
      cases hnone
  rule := by
    intro id rest next s _ h
    exact ⟨h.noted.trans (r.expand_noted id [] next s), by simp⟩
  object := by
    intro id rest next s hk h
    obtain ⟨hsize, htoken⟩ := s.spawn_token id
    have hspawned : Noted s 0 (s.spawn id) := .of_eq rfl rfl
    refine ⟨h.noted.trans (hspawned.trans (r.expand_noted id [] next _)), ?_⟩
    rintro _ ⟨⟩
    -- there is such a symbol, since one that does not exist is of no kind
    have hlt : id < (s.spawn id).arena.size := by
      rw [hsize]
      refine Nat.lt_of_not_le fun hle => ?_
      rw [Arena.get_of_size_le hle] at hk
      cases hk
    have hkind := (r.expand_token id [] next (s.spawn id)).2 id hlt
    exact (congrArg Token.kind (hkind.trans (htoken id))).trans hk

/-- A pass that fails does so by an object, whose entity is tested last. -/
structure FailedBy (s : RunState W ρ) (id : SymbolId) (s' : RunState W ρ) : Prop where
  kind : (s'.arena.get id).kind = .object
  tested : ∃ entity calls, (s'.arena.get id).entity = some entity ∧
    s'.calls.toList = calls ++ [.check entity true]

/-- **A pass notes one violation if it fails, and otherwise none.** -/
theorem Run.pass_noted (r : Run α W) (s : RunState W ρ) :
    Noted s (if (r.pass s).failed then 1 else 0) (r.pass s).state ∧
      ∀ id s', r.pass s = .violated id s' → FailedBy s id s' := by
  have hstart : Noting s none { s with spawnedThisPass := #[] } := ⟨.of_eq rfl rfl, by simp⟩
  have hk := (Noting.passInvariant r s).pass hstart
  rcases hp : r.pass s with ⟨next, t⟩ | ⟨symbol, t⟩ <;> rw [hp] at hk
  · exact ⟨hk.noted, by rintro _ _ ⟨⟩⟩
  · obtain ⟨rest, next, waiting, u, hu, hc⟩ := hk
    rcases r.check_cases waiting u with ⟨-, hd⟩ | ⟨_, _, -, -, -, hd⟩ | ⟨id, e, rfl, he, -, hd⟩ <;>
      rw [hd] at hc <;> cases hc
    refine ⟨?_, ?_⟩
    · let violation : Diagnostic := .spatialViolation u.iteration (u.arena.get symbol).raw e
      have hrecorded : Noted u 0 (u.record (.check e true)) := .of_eq rfl rfl
      have hviolation : Noted (u.record (.check e true)) 1
          ((u.record (.check e true)).note violation) := .note _ rfl
      exact hu.noted.trans (hrecorded.trans hviolation)
    · rintro _ _ ⟨⟩
      exact ⟨hu.object symbol rfl, e, u.calls.toList, he, Array.toList_push⟩

end Symbols

end SpatialGrammar
