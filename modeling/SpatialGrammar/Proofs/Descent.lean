/-
SpatialGrammar/Proofs/Descent.lean

The producers above the symbols of a run, and what a method is told of them.

An iteration whose pass was completed leaves a generation of symbols, each with the
entity that the pass made for it if it is an object (`Run.Ancestor`).  The producers
above a symbol of iteration `k` are one from each iteration before (`Run.Lineal`).
Neither a pass nor another attempt changes anything about them, so this is kept from
step to step (`Descended`), whatever became of the attempts in between.
-/
import SpatialGrammar.Decimal.Layout
import SpatialGrammar.Derivation.Rehearsal
import SpatialGrammar.Proofs.Ancestry
import SpatialGrammar.Proofs.PassPoints
import SpatialGrammar.Random.Replay

namespace SpatialGrammar

variable {α W ρ : Type} [Scalar α] [Numeral α] [RandomSource ρ α] [World W ρ]

/-! ### What a pass asks of the world -/

/-- A pass that began in `s₀` has asked for a method of that sentence, for the entity of an
object of that sentence. -/
def RunState.Asked (s₀ s : RunState W ρ) (e : EntityId) (call : MethodCall) : Prop :=
  ∃ object ∈ s₀.current.symbols.toList, ∃ method ∈ s₀.current.symbols.toList,
    (s₀.arena.get method).kind = .method ∧ (s.arena.get object).entity = some e ∧
      call = s₀.callOf method object

/-- All methods that are among the requests of a pass were asked for like this. -/
structure Asking (r : Run α W) (s₀ : RunState W ρ) (ids : List SymbolId) (next : Sentence)
    (waiting : Option SymbolId) (s : RunState W ρ) (requests : List Call) : Prop where
  making : Making r s₀ ids next waiting s
  transcribed : Transcribed s₀ requests s
  asked : ∀ e call found, .method e call found ∈ requests → s₀.Asked s e call

omit [Scalar α] [Numeral α] [RandomSource ρ α] [World W ρ] in
/-- A request that is no method adds nothing to be said. -/
theorem RunState.Asked.push {s₀ s : RunState W ρ} {requests : List Call} {c : Call}
    (h : ∀ e call found, .method e call found ∈ requests → s₀.Asked s e call)
    (hc : ∀ e call found, c = .method e call found → s₀.Asked s e call) :
    ∀ e call found, .method e call found ∈ requests ++ [c] → s₀.Asked s e call := by
  intro e call found hmem
  rcases List.mem_append.mp hmem with hmem | hmem
  · exact h e call found hmem
  · exact hc e call found (List.mem_singleton.mp hmem).symm

theorem Asking.passInvariant {r : Run α W} {lo : Nat} {s₀ : RunState W ρ} (hl : Layered r lo s₀) :
    PassInvariant r fun ids next waiting s =>
      ∃ requests, Asking r s₀ ids next waiting s requests := by
  have hI := Making.passInvariant hl
  refine ⟨?_, ?_, ?_, ?_, ?_⟩
  · -- method: the object and the method are symbols of the sentence
    rintro id rest next waiting s hk ⟨requests, h⟩
    have hmaking := hI.method hk h.making
    have hid : id ∈ s₀.current.symbols.toList := h.making.writing.writing.mem
    rcases s.dispatch_callOf id waiting with
      ⟨_, hd⟩ | ⟨object, e, found, _, _, rfl, he, -, hd⟩ <;> rw [hd] at hmaking ⊢
    · exact ⟨_, hmaking, h.transcribed.frame rfl rfl rfl, h.asked⟩
    · have ho : object ∈ s₀.current.symbols.toList := h.making.writing.waiting_mem object rfl
      refine ⟨_, hmaking, h.transcribed.push (.method e (s.callOf id object) found) rfl rfl
        (List.append_nil _).symm rfl, RunState.Asked.push h.asked ?_⟩
      rintro _ _ _ ⟨⟩
      refine ⟨object, ho, id, hid, ?_, he, h.making.writing.callOf_eq hl hid ho⟩
      rw [← h.making.writing.kind_eq (hl.lt_size id hid), hk]
  · -- invalid
    rintro id rest next waiting s hk ⟨requests, h⟩
    exact ⟨requests, hI.invalid hk h.making, h.transcribed, h.asked⟩
  · -- check
    rintro ids next waiting s hc ⟨requests, h⟩
    have hmaking := hI.check hc h.making
    rcases r.check_cases waiting s with ⟨-, hd⟩ | ⟨_, e, -, -, -, hd⟩ | ⟨_, _, -, -, -, hd⟩ <;>
      rw [hd] at hmaking hc ⊢
    · exact ⟨requests, hmaking, h.transcribed, h.asked⟩
    · exact ⟨_, hmaking, h.transcribed.push (.check e false) rfl rfl (List.append_nil _).symm rfl,
        RunState.Asked.push h.asked (by simp)⟩
    · cases hc
  · -- rule
    rintro id rest next s hk ⟨requests, h⟩
    refine ⟨requests, hI.rule hk h.making, h.transcribed.expand r id [] next, ?_⟩
    intro e call found hmem
    obtain ⟨object, ho, method, hm, hkind, hentity, hcall⟩ := h.asked e call found hmem
    exact ⟨object, ho, method, hm, hkind, by rw [r.expand_entity]; exact hentity, hcall⟩
  · -- object: one that has its entity already is another one
    rintro id rest next s hk ⟨requests, h⟩
    obtain ⟨x, request, -, hspawn⟩ := h.transcribed.spawn id
    refine ⟨_, hI.object hk h.making, hspawn.expand r id [] next,
      RunState.Asked.push ?_ (by simp)⟩
    intro e call found hmem
    obtain ⟨object, ho, method, hm, hkind, hentity, hcall⟩ := h.asked e call found hmem
    refine ⟨object, ho, method, hm, hkind, ?_, hcall⟩
    have hne : object ≠ id := by
      rintro rfl
      rw [h.making.unread object List.mem_cons_self] at hentity
      cases hentity
    rw [r.object_entity_ne hne, hentity]

/-- **Whatever method a pass asks for is one of its sentence**, for the entity of one of its
objects. -/
theorem Layered.asked {r : Run α W} {lo : Nat} {s : RunState W ρ} (hl : Layered r lo s)
    {e : EntityId} {call : MethodCall} {found : Bool}
    (h : .method e call found ∈ (r.passTrace s).requests) :
    ∃ object ∈ s.current.symbols.toList, ∃ method ∈ s.current.symbols.toList,
      (s.arena.get object).kind = .object ∧ (s.arena.get method).kind = .method ∧
        ((r.pass s).state.arena.get object).entity = some e ∧ call = s.callOf method object := by
  have hstart :
      Asking r s s.current.symbols.toList .empty none { s with spawnedThisPass := #[] } [] :=
    ⟨.start hl, ⟨by simp, by simp, rfl, rfl⟩, by simp⟩
  have hk := (Asking.passInvariant hl).pass ⟨[], hstart⟩
  have htrace := r.passTrace_spec s
  -- where a test ends the pass, it is no method and changes no symbol
  have hend : ∃ ids next waiting t requests, Asking r s ids next waiting t requests ∧
      t.arena = (r.pass s).state.arena ∧ .method e call found ∈ requests := by
    rcases hp : r.pass s with ⟨next, t⟩ | ⟨symbol, t⟩ <;> rw [hp] at hk htrace
    · obtain ⟨requests, ht⟩ := hk
      exact ⟨_, _, _, t, requests, ht, rfl, ht.transcribed.unique htrace ▸ h⟩
    · obtain ⟨rest, next, waiting, u, ⟨requests, hu⟩, hc⟩ := hk
      refine ⟨rest, next, waiting, u, requests, hu, ?_, ?_⟩
      · simpa [hc] using (r.check_arena waiting u).symm
      · obtain ⟨x, hx⟩ : ∃ x, Transcribed s (requests ++ [.check x true]) t := by
          rcases r.check_cases waiting u with
              ⟨-, hd⟩ | ⟨_, _, -, -, -, hd⟩ | ⟨_, x, -, -, -, hd⟩ <;>
            rw [hd] at hc <;> cases hc
          exact ⟨x, hu.transcribed.push (.check x true) rfl rfl (List.append_nil _).symm rfl⟩
        rw [htrace.unique hx] at h
        simpa using h
  obtain ⟨ids, next, waiting, t, requests, ht, harena, hmem⟩ := hend
  obtain ⟨object, ho, method, hm, hkind, hentity, hcall⟩ := ht.asked e call found hmem
  refine ⟨object, ho, method, hm, ?_, hkind, by rw [← harena]; exact hentity, hcall⟩
  have hread : object ∉ ids := by
    intro hid
    rw [ht.making.unread object hid] at hentity
    cases hentity
  exact (ht.making.read object ho hread).1.mp (by rw [hentity]; rfl)

/-! ### The entities from moment to moment -/

/-- An entity that a symbol has, it keeps from point to point. -/
theorem Layered.entity_move {r : Run α W} {lo : Nat} {s : RunState W ρ} (hl : Layered r lo s)
    {p q : PassPoint W ρ} (hp : r.Points s p) (hmove : r.Move p q) {id : SymbolId} {e : EntityId}
    (he : (p.state.arena.get id).entity = some e) : (q.state.arena.get id).entity = some e := by
  have hmaking := (Making.passInvariant hl).points (.start hl) hp
  cases hmove with
  | @method j _ _ waiting s _ =>
    rcases s.dispatch_cases j waiting with ⟨_, hd⟩ | ⟨_, _, _, _, _, _, -, -, -, -, hd⟩ <;>
      rw [hd] <;> exact he
  | invalid _ => exact he
  | check _ =>
    rw [r.check_arena]
    exact he
  | rule _ =>
    rw [r.expand_entity]
    exact he
  | @object j _ _ s _ =>
    have hne : id ≠ j := by
      rintro rfl
      rw [hmaking.unread id List.mem_cons_self] at he
      cases he
    rw [r.object_entity_ne hne]
    exact he

/-- Between two passes no symbol gets or loses an entity. -/
theorem Run.entity_again {r : Run α W} {s t : RunState W ρ} (h : r.step s = .again t)
    (id : SymbolId) : (t.arena.get id).entity = ((r.pass s).state.arena.get id).entity := by
  rcases Run.step_again h with ⟨next, s', hp, -, rfl⟩ | ⟨symbol, s', hp, rfl⟩
  · rw [hp]
    rfl
  · have hderive := r.derive_entity (s'.abandon.blame symbol) id
    rw [RunState.blame_abandon_arena] at hderive
    rw [hp]
    exact hderive

/-! ### The iterations before -/

/-- Iteration `i` was completed by the pass that began in `u`, and since then the run has come to
`s`. -/
structure Run.Completed (r : Run α W) (s₀ : RunState W ρ) (i : Nat) (u s : RunState W ρ) :
    Prop where
  reaches : r.Reaches s₀ u
  iteration : u.iteration = i
  completed : (r.passTrace u).failed = false
  since : ∃ t, r.step u = .again t ∧ r.Reaches t s

/-- The symbol `q` is a rule or an object of the sentence by which iteration `i` was completed, and
has the entity that was made for it if it is an object, and else none. -/
structure Run.Ancestor (r : Run α W) (s₀ s : RunState W ρ) (i : Nat) (q : SymbolId) : Prop where
  expands : (s.arena.get q).kind.expands = true
  entity : (s.arena.get q).entity.isSome ↔ (s.arena.get q).kind = .object
  committed : ∃ u, r.Completed s₀ i u s ∧ q ∈ u.current.symbols.toList ∧
    ∀ e, (s.arena.get q).entity = some e → e ∈ (r.passTrace u).spawned

/-- One symbol from each of the first `k` iterations, the last iteration first. -/
inductive Run.Lineal (r : Run α W) (s₀ s : RunState W ρ) : Nat → List SymbolId → Prop
  | nil : Lineal r s₀ s 0 []
  | cons {k : Nat} {q : SymbolId} {qs : List SymbolId} :
      r.Ancestor s₀ s k q → Lineal r s₀ s k qs → Lineal r s₀ s (k + 1) (q :: qs)

variable {r : Run α W} {s₀ s t : RunState W ρ}

theorem Run.Completed.trans {i : Nat} {u : RunState W ρ} (h : r.Completed s₀ i u s)
    (ht : r.Reaches s t) : r.Completed s₀ i u t := by
  obtain ⟨v, hv, hs⟩ := h.since
  exact ⟨h.reaches, h.iteration, h.completed, v, hv, hs.trans ht⟩

/-- **An entity of a completed iteration is not taken back**, if the world never gives a handle
twice. -/
theorem Run.Completed.not_discarded {w : W} {source : ρ} {i : Nat} {u : RunState W ρ}
    (h : r.Completed (r.begin w source) i u s) (fresh : (Call.spawned s.calls.toList).Nodup)
    {e : EntityId} (he : e ∈ (r.passTrace u).spawned) : e ∉ Call.discarded s.calls.toList := by
  obtain ⟨t, hstep, hts⟩ := h.since
  obtain ⟨n, hn⟩ := Follows.of_reaches h.reaches
  have hu := Follows.of_again hstep
  obtain ⟨m, hm⟩ := Follows.of_reaches hts
  let passes := r.passes n (r.begin w source) ++ r.passTrace u :: r.passes m t
  have hcalls : s.calls.toList = passes.flatMap PassTrace.calls := by
    have hbegin : (r.begin w source).calls.toList = [] := rfl
    rw [hm.calls, hu.calls, hn.calls, hbegin, List.nil_append, List.flatMap_append,
      List.flatMap_cons, List.append_assoc]
  have hsymbols : ∀ p ∈ passes, ∀ c ∈ p.requests, c.ofSymbol := by
    intro p hp
    rcases List.mem_append.mp hp with hp | hp
    · exact r.ofSymbol_passes n _ p hp
    · rcases List.mem_cons.mp hp with rfl | hp
      · exact (r.passTrace_spec u).ofSymbol
      · exact r.ofSymbol_passes m t p hp
  rw [hcalls, PassTrace.spawned_flatMap_calls] at fresh
  rw [hcalls, PassTrace.discarded_flatMap_calls hsymbols]
  have hkept : e ∈ passes.flatMap PassTrace.kept := by
    refine List.mem_flatMap.mpr ⟨r.passTrace u, List.mem_append_right _ List.mem_cons_self, ?_⟩
    simpa [PassTrace.kept, h.completed] using he
  rw [← PassTrace.filter_spawned fresh] at hkept
  simpa using (List.mem_filter.mp hkept).2

namespace Run.Lineal

variable {k : Nat} {qs : List SymbolId}

theorem length_eq (h : r.Lineal s₀ s k qs) : qs.length = k := by
  induction h with
  | nil => rfl
  | cons _ _ ih => rw [List.length_cons, ih]

/-- The `j`-th of them, from zero, is from the `j + 1`-th iteration before. -/
theorem ancestor (h : r.Lineal s₀ s k qs) {j : Nat} {q : SymbolId} (hq : qs[j]? = some q) :
    r.Ancestor s₀ s (k - (j + 1)) q := by
  induction h generalizing j with
  | nil => simp at hq
  | @cons k _ _ hfirst _ ih =>
    rcases j with - | j
    · cases hq
      exact hfirst
    · have hrest := ih (by simpa using hq)
      have hindex : k + 1 - (j + 1 + 1) = k - (j + 1) := by omega
      rw [hindex]
      exact hrest

theorem mono (h : r.Lineal s₀ s k qs)
    (hmono : ∀ i, ∀ q ∈ qs, r.Ancestor s₀ s i q → r.Ancestor s₀ t i q) : r.Lineal s₀ t k qs := by
  induction h with
  | nil => exact .nil
  | cons hfirst _ ih =>
    exact .cons (hmono _ _ List.mem_cons_self hfirst)
      (ih fun i q hq => hmono i q (List.mem_cons_of_mem _ hq))

end Run.Lineal

/-- A symbol of which nothing changes remains what it was. -/
theorem Run.Ancestor.mono {i : Nat} {q : SymbolId} (h : r.Ancestor s₀ s i q)
    (hkind : (t.arena.get q).kind = (s.arena.get q).kind)
    (hentity : (t.arena.get q).entity = (s.arena.get q).entity) (hreach : r.Reaches s t) :
    r.Ancestor s₀ t i q := by
  obtain ⟨u, hu, hmem, hspawned⟩ := h.committed
  refine ⟨by rw [hkind]; exact h.expands, by rw [hkind, hentity]; exact h.entity, u,
    hu.trans hreach, hmem, ?_⟩
  rw [hentity]
  exact hspawned

/-! ### From step to step -/

/-- After a pass that failed, nothing of the symbols but choices is changed. -/
theorem Run.retry_keeps {β : Type} {f : Symbol → β}
    (hf : ∀ (x : Symbol) (c : Option Nat), f { x with chosen := c } = f x) (r : Run α W)
    (symbol : SymbolId) {s' : RunState W ρ} {q : SymbolId} (hq : q < s'.arena.size) :
    f ((r.retry symbol s'.abandon).arena.get q) = f (s'.arena.get q) := by
  have hd := (r.derive_keeps hf (s'.abandon.blame symbol)).2 q
  rw [RunState.blame_abandon_arena] at hd
  exact hd hq

/-- So in another attempt nothing of the symbols before the sentence is. -/
theorem Layered.keeps_retry {β : Type} {f : Symbol → β}
    (hf : ∀ (x : Symbol) (c : Option Nat), f { x with chosen := c } = f x) {lo : Nat}
    {symbol : SymbolId} {s' : RunState W ρ} (hl : Layered r lo s)
    (hp : r.pass s = .violated symbol s') {q : SymbolId} (hq : q < lo) :
    f ((r.retry symbol s'.abandon).arena.get q) = f (s.arena.get q) := by
  have hfailed := hl.failed hp
  have hlt : q < s'.arena.size := Nat.lt_of_lt_of_le hq (Nat.le_trans hl.lo_le hfailed.size_le)
  rw [r.retry_keeps hf symbol hlt, hfailed.get_eq q hq]

/-- The symbols lie in layers, and above those of the sentence before there is one
producer from each iteration. -/
structure Descended (r : Run α W) (s₀ : RunState W ρ) (lo : Nat) (s : RunState W ρ) : Prop where
  layered : Layered r lo s
  reached : r.Reaches s₀ s
  objects : s.arena.Objects
  above : (s.previous = none ∧ s.iteration = 0) ∨ ∃ previous, s.previous = some previous ∧
    ∀ p ∈ previous.symbols.toList, (s.arena.get p).kind.expands = true →
      r.Lineal s₀ s s.iteration (p :: s.arena.ancestors p)

namespace Descended

variable {lo : Nat} {s' : RunState W ρ} {next : Sentence} {symbol : SymbolId}

/-- Above a symbol of the current sentence there is one producer from each iteration. -/
theorem lineal (h : Descended r s₀ lo s) {c : SymbolId} (hc : c ∈ s.current.symbols.toList) :
    r.Lineal s₀ s s.iteration (s.arena.ancestors c) := by
  rcases h.layered.produced with ⟨hprevious, -, hnone⟩ | ⟨previous, hprevious, hprod⟩
  · rcases h.above with ⟨-, hzero⟩ | ⟨_, hsome, -⟩
    · rw [Arena.ancestors_of_none (hnone c hc), hzero]
      exact .nil
    · rw [hprevious] at hsome
      cases hsome
  · rcases h.above with ⟨hnone, -⟩ | ⟨_, hsome, habove⟩
    · rw [hprevious] at hnone
      cases hnone
    · rw [hprevious] at hsome
      cases hsome
      obtain ⟨p, hp, hparent, hexpands, -⟩ := hprod.parent c hc
      rw [Arena.ancestors_of_some h.layered.older hparent]
      exact habove p hp hexpands

/-- There have not been more iterations than there are symbols before one of the sentence. -/
theorem iteration_le (h : Descended r s₀ lo s) {c : SymbolId} (hc : c ∈ s.current.symbols.toList) :
    s.iteration ≤ c := by
  rw [← (h.lineal hc).length_eq]
  exact s.arena.length_ancestors_le c

/-- The beginning of a run. -/
theorem begin (r : Run α W) (w : W) (source : ρ) :
    Descended r (r.begin w source) 0 (r.begin w source) := by
  have hl := Layered.begin r w source
  refine ⟨hl, .refl, ?_, .inl ⟨rfl, rfl⟩⟩
  intro id e he
  rw [hl.unmade (Nat.zero_le id)] at he
  cases he

/-- The sentence that a completed pass has read is the next generation of producers. -/
theorem commit (h : Descended r s₀ lo s) (hstep : r.step s = .again (s'.commit next))
    (hp : r.pass s = .completed next s') (hnext : next.isEmpty = false)
    (small : s'.arena.size < UInt32.size) :
    Descended r s₀ s.arena.size (s'.commit next) := by
  have hl := h.layered
  have hlayered := hl.commit hp
  have hmaking : Making r s [] next none s' := by
    have hk := (Making.passInvariant hl).pass (.start hl)
    rwa [hp] at hk
  have hcurrent : s'.current = s.current := by simpa [hp] using r.pass_current s
  have hiteration : (s'.commit next).iteration = s.iteration + 1 := by
    have hs : s'.iteration = s.iteration := by simpa [hp] using r.pass_iteration s
    -- a symbol of the next sentence has a producer in this one, behind one symbol an iteration
    obtain ⟨c, hc⟩ := List.exists_mem_of_ne_nil next.symbols.toList (by
      simpa [Sentence.isEmpty] using hnext)
    obtain ⟨done, hw, -⟩ := Run.completed_writing hl.nodup hl.lt_size hp
    obtain ⟨hle, hlt⟩ := hw.next_mem c hc
    obtain ⟨-, p, hpd, -⟩ := hw.fresh c hle hlt
    obtain ⟨hmem, hplt⟩ := hw.read p hpd
    have hbound : s.iteration + 1 < UInt32.size := calc
      s.iteration + 1 ≤ p + 1 := Nat.succ_le_succ (h.iteration_le hmem)
      _ ≤ s.arena.size := hplt
      _ ≤ c := hle
      _ < s'.arena.size := hlt
      _ < UInt32.size := small
    show min (s'.iteration + 1) RunState.lastIteration = s.iteration + 1
    rw [hs]
    exact Nat.min_eq_left (Nat.le_pred_of_lt hbound)
  have hpass : r.Reaches s (s'.commit next) := .single hstep
  refine ⟨hlayered, h.reached.tail hstep, hmaking.objects hl h.objects, .inr ⟨s'.current, rfl, ?_⟩⟩
  rw [hcurrent, hiteration]
  intro p hmem hexpands
  have hkind : (s'.arena.get p).kind = (s.arena.get p).kind :=
    hmaking.writing.kind_eq (hl.lt_size p hmem)
  have hancestors : s'.arena.ancestors p = s.arena.ancestors p :=
    hmaking.writing.ancestors_eq hl hmem
  show r.Lineal s₀ (s'.commit next) (s.iteration + 1) (p :: s'.arena.ancestors p)
  rw [hancestors]
  obtain ⟨hiff, hspawned⟩ := hmaking.read p hmem List.not_mem_nil
  have hfailed : (r.passTrace s).failed = false := by
    simp [Run.passTrace, hp, PassResult.failed]
  have hmade : s'.spawnedThisPass.toList = (r.passTrace s).spawned := by
    have hs := (r.passTrace_spec s).spawned
    rwa [hp] at hs
  refine .cons ⟨hexpands, ?_, s, ⟨h.reached, rfl, hfailed, _, hstep, .refl⟩, hmem, ?_⟩
    ((h.lineal hmem).mono ?_)
  · rw [← hkind] at hiff
    exact hiff
  · rw [← hmade]
    exact hspawned
  · -- the producers above it are older than the sentence, so the pass leaves them alone
    intro i q hq hancestor
    have hlo : q < lo := hl.ancestor_lt hmem hq
    exact hancestor.mono (hmaking.writing.kind_eq (Nat.lt_of_lt_of_le hlo hl.lo_le))
      (hmaking.writing.entity_eq_of_lt hl hlo) hpass

/-- Another attempt comes from the same producers. -/
theorem retry (h : Descended r s₀ lo s) (hstep : r.step s = .again (r.retry symbol s'.abandon))
    (hp : r.pass s = .violated symbol s') :
    Descended r s₀ s'.arena.size (r.retry symbol s'.abandon) := by
  have hl := h.layered
  have hlayered := hl.retry hp
  obtain ⟨hprevious, -, hiteration, -⟩ := Run.retry_of_violated hp
  refine ⟨hlayered, h.reached.tail hstep, ?_, ?_⟩
  · -- objects: those of the pass, of which nothing but choices has changed since
    intro q e he
    rw [Run.entity_again hstep] at he
    obtain ⟨p, hpoint, harena⟩ := r.exists_point_arena s
    have hobjects := ((Making.passInvariant hl).points (.start hl) hpoint).objects hl h.objects
    rw [← harena] at hobjects
    have hlt : q < s'.arena.size := by
      refine Nat.lt_of_not_le fun hle => ?_
      rw [hp, PassResult.state, Arena.get_of_size_le hle] at he
      cases he
    have hkind := r.retry_keeps (f := fun x => x.kind) (fun _ _ => rfl) symbol hlt
    rw [hp] at hobjects he
    rw [hkind]
    exact hobjects he
  · -- above
    rw [hprevious, hiteration]
    rcases h.above with ⟨hnone, hzero⟩ | ⟨previous, hsome, habove⟩
    · exact .inl ⟨hnone, hzero⟩
    refine .inr ⟨previous, hsome, ?_⟩
    intro p hmem hexpands
    have hplt : p < lo := by
      rcases hl.produced with ⟨hnone, -⟩ | ⟨_, hsome', hprod⟩
      · rw [hsome] at hnone
        cases hnone
      · rw [hsome] at hsome'
        cases hsome'
        exact hprod.lt p hmem
    have hancestors : (r.retry symbol s'.abandon).arena.ancestors p = s.arena.ancestors p :=
      Arena.ancestors_congr hl.older hlayered.older fun q hq =>
        Layered.keeps_retry (f := Symbol.parent) (fun _ _ => rfl) hl hp (Nat.lt_of_le_of_lt hq hplt)
    have hkind {q : SymbolId} (hq : q < lo) :=
      Layered.keeps_retry (f := fun x => x.kind) (fun _ _ => rfl) hl hp hq
    rw [hkind hplt] at hexpands
    rw [hancestors]
    refine (habove p hmem hexpands).mono ?_
    intro i q hq hancestor
    have hqlt : q < lo := by
      rcases List.mem_cons.mp hq with rfl | hq
      · exact hplt
      · exact Nat.lt_trans (Arena.lt_of_mem_ancestors hl.older hq) hplt
    exact hancestor.mono (hkind hqlt)
      (Layered.keeps_retry (f := Symbol.entity) (fun _ _ => rfl) hl hp hqlt) (.single hstep)

/-- **At every pass of a run there is one producer from each iteration above every symbol**, as long
as the iterations can be counted. -/
theorem of_reaches {w : W} {source : ρ} (hr : r.Reaches (r.begin w source) s)
    (small : s.arena.size < UInt32.size) : ∃ lo, Descended r (r.begin w source) lo s := by
  induction hr with
  | refl => exact ⟨0, begin r w source⟩
  | @tail s t hs hstep ih =>
    obtain ⟨_, hl⟩ := Layered.of_reaches hs
    rcases Run.step_again hstep with ⟨next, s', hp, hnext, rfl⟩ | ⟨symbol, s', hp, rfl⟩
    · have hsize : s.arena.size ≤ s'.arena.size := (hl.commit hp).lo_le
      obtain ⟨_, h⟩ := ih (Nat.lt_of_le_of_lt hsize small)
      exact ⟨_, h.commit hstep hp hnext small⟩
    · have hsize : s'.arena.size ≤ (r.retry symbol s'.abandon).arena.size := (hl.retry hp).lo_le
      obtain ⟨_, h⟩ := ih
        (Nat.lt_of_le_of_lt (Nat.le_trans (hl.failed hp).size_le hsize) small)
      exact ⟨_, h.retry hstep hp⟩

end Descended

/-! ### What a method is told -/

/-- What holds of symbols, producers and entities when the pass that begins in `s` is made, in a run
from `s₀`. -/
structure Run.Descends (r : Run α W) (s₀ s : RunState W ρ) : Prop where
  /-- At every point of the pass all producers are older than what they produced, only objects have
  entities, and no symbol that is still to be read has one. -/
  points : ∀ p, r.Points s p → p.state.arena.Older ∧ p.state.arena.Objects ∧
    ∀ id ∈ p.ids, (p.state.arena.get id).entity = none
  /-- An entity that a symbol has is not changed by the pass. -/
  moves : ∀ p q, r.Points s p → r.Move p q → ∀ id e,
    (p.state.arena.get id).entity = some e → (q.state.arena.get id).entity = some e
  /-- No entity is changed by what follows from the pass. -/
  again : ∀ t, r.step s = .again t → ∀ id,
    (t.arena.get id).entity = ((r.pass s).state.arena.get id).entity
  /-- The producers above a symbol of the sentence are one from each iteration before. -/
  ancestors : ∀ c ∈ s.current.symbols.toList, (s.arena.ancestors c).length = s.iteration ∧
    ∀ j q, (s.arena.ancestors c)[j]? = some q → r.Ancestor s₀ s (s.iteration - (j + 1)) q
  /-- A method is told of the entities of those that are objects, and of its own producer's; all of
  them were made in iterations that were completed, and none of them has been taken back. -/
  methods : ∀ e call found, .method e call found ∈ (r.passTrace s).requests →
    ∃ object ∈ s.current.symbols.toList, ∃ method ∈ s.current.symbols.toList,
      (s.arena.get object).kind = .object ∧ (s.arena.get method).kind = .method ∧
      ((r.pass s).state.arena.get object).entity = some e ∧ call = s.callOf method object ∧
      call.lineage.length = s.iteration ∧
      (call.lineage.map Option.isSome =
        (s.arena.ancestors object).map fun q => decide ((s.arena.get q).kind = .object)) ∧
      ∀ x, some x ∈ call.lineage ∨ call.producer = some x →
        (∃ i u, i < s.iteration ∧ r.Completed s₀ i u s ∧ x ∈ (r.passTrace u).spawned) ∧
        x ∉ Call.discarded s.calls.toList

namespace Descended

variable {lo : Nat}

/-- The entity of a producer above a symbol of the sentence was made in a completed iteration. -/
theorem spawned_of_ancestor (h : Descended r s₀ lo s) {c q : SymbolId}
    (hc : c ∈ s.current.symbols.toList) (hq : q ∈ s.arena.ancestors c) {x : EntityId}
    (hx : (s.arena.get q).entity = some x) :
    ∃ i u, i < s.iteration ∧ r.Completed s₀ i u s ∧ x ∈ (r.passTrace u).spawned := by
  obtain ⟨j, hj⟩ := List.mem_iff_getElem?.mp hq
  have hlineal := h.lineal hc
  obtain ⟨u, hu, -, hspawned⟩ := (hlineal.ancestor hj).committed
  have hlt : j < s.iteration := by
    rw [← hlineal.length_eq]
    exact (List.getElem?_eq_some_iff.mp hj).1
  exact ⟨s.iteration - (j + 1), u, by omega, hu, hspawned x hx⟩

/-- The entities above a symbol of the sentence are those of the objects above it. -/
theorem lineage_map_isSome (h : Descended r s₀ lo s) {c : SymbolId}
    (hc : c ∈ s.current.symbols.toList) : (s.arena.lineage c).map Option.isSome =
      (s.arena.ancestors c).map fun q => decide ((s.arena.get q).kind = .object) := by
  unfold Arena.lineage
  rw [List.map_map]
  refine List.map_congr_left fun q hq => ?_
  obtain ⟨j, hj⟩ := List.mem_iff_getElem?.mp hq
  have hiff := ((h.lineal hc).ancestor hj).entity
  show (s.arena.get q).entity.isSome = decide ((s.arena.get q).kind = .object)
  rw [Bool.eq_iff_iff, hiff, decide_eq_true_iff]

end Descended

/-- **The producers above a symbol are well founded, committed and alive.**  A run with fewer
symbols than iterations can be counted, in a world that never gives a handle twice, is at every
pass as `Run.Descends` says. -/
theorem Run.descent {w : W} {source : ρ} (hr : r.Reaches (r.begin w source) s)
    (small : s.arena.size < UInt32.size) (fresh : (Call.spawned s.calls.toList).Nodup) :
    r.Descends (r.begin w source) s := by
  obtain ⟨lo, h⟩ := Descended.of_reaches hr small
  have hl := h.layered
  have hmaking {p : PassPoint W ρ} (hp : r.Points s p) :=
    (Making.passInvariant hl).points (.start hl) hp
  refine ⟨?_, ?_, ?_, ?_, ?_⟩
  · -- points
    intro p hp
    exact ⟨(hmaking hp).writing.older hl.older, (hmaking hp).objects hl h.objects,
      (hmaking hp).unread⟩
  · -- moves
    intro p q hp hmove id e he
    exact hl.entity_move hp hmove he
  · -- again
    intro t hstep id
    exact entity_again hstep id
  · -- ancestors
    intro c hc
    exact ⟨(h.lineal hc).length_eq, fun j q hq => (h.lineal hc).ancestor hq⟩
  · -- methods
    intro e call found hmem
    obtain ⟨object, ho, method, hm, hobject, hmethod, hentity, rfl⟩ := hl.asked hmem
    have hlength : (s.arena.lineage object).length = s.iteration := by
      rw [Arena.lineage, List.length_map, (h.lineal ho).length_eq]
    refine ⟨object, ho, method, hm, hobject, hmethod, hentity, rfl, hlength,
      h.lineage_map_isSome ho, ?_⟩
    intro x hx
    have hspawned : ∃ i u, i < s.iteration ∧ r.Completed (r.begin w source) i u s ∧
        x ∈ (r.passTrace u).spawned := by
      rcases hx with hx | hx
      · obtain ⟨q, hq, hqx⟩ := List.mem_map.mp hx
        exact h.spawned_of_ancestor ho hq hqx
      · -- the producer of the method is the first of those above it
        obtain ⟨p, hp, hpx⟩ := Option.bind_eq_some_iff.mp hx
        refine h.spawned_of_ancestor hm ?_ hpx
        rw [Arena.ancestors_of_some hl.older hp]
        exact List.mem_cons_self
    obtain ⟨i, u, hi, hu, hxu⟩ := hspawned
    exact ⟨⟨i, u, hi, hu, hxu⟩, hu.not_discarded fresh hxu⟩

/-- A grammar that makes an object under an object under a rule. -/
def Run.descending : Run Float32 Rehearsal where
  rules := .ofList [⟨"S", [⟨1, "<o A><m Turn>"⟩]⟩,
    ⟨"A", [⟨1, "<o B><m Turn>"⟩, ⟨2, "<o C><m Turn>"⟩]⟩]
  settings := ⟨.bounded 3, false, 3⟩
  start := "<r S>"
  violates := Rehearsal.violates

/-- A rehearsal with one method that objects to one of the objects below. -/
def Rehearsal.descending : Rehearsal := ⟨#[], false, ["Turn"], [], ["C"], #[]⟩

/-- The state after three passes, of which the last one failed. -/
def Run.descended : RunState Rehearsal Replay :=
  descending.next (descending.next (descending.next
    (descending.begin .descending (⟨#[0.5], 0⟩ : Replay))))

/-- In the second attempt of its last iteration the method is told of the object above, and of no
entity for the rule above that. -/
theorem Run.descent_descended :
    descending.Reaches (descending.begin .descending (⟨#[0.5], 0⟩ : Replay)) descended ∧
    descended.iteration = 2 ∧ Call.discarded descended.calls.toList = [1] ∧
    (descending.passTrace descended).requests =
      [.spawn 2 ⟨"B", ""⟩, .method 2 ⟨"Turn", "", [some 0, none], some 0⟩ true, .check 2 false] ∧
    descending.Descends (descending.begin .descending (⟨#[0.5], 0⟩ : Replay)) descended := by
  have hfirst : descending.goesOn
      (descending.begin .descending (⟨#[0.5], 0⟩ : Replay)) = true := by
    decide +kernel
  have hsecond : descending.goesOn (descending.next
      (descending.begin .descending (⟨#[0.5], 0⟩ : Replay))) = true := by
    decide +kernel
  have hthird : descending.goesOn (descending.next (descending.next
      (descending.begin .descending (⟨#[0.5], 0⟩ : Replay)))) = true := by
    decide +kernel
  have hreaches : descending.Reaches (descending.begin .descending (⟨#[0.5], 0⟩ : Replay))
      descended :=
    ((Reaches.next .refl hfirst).next hsecond).next hthird
  have hstate : descended.iteration = 2 ∧ Call.discarded descended.calls.toList = [1] ∧
      (descending.passTrace descended).requests =
        [.spawn 2 ⟨"B", ""⟩, .method 2 ⟨"Turn", "", [some 0, none], some 0⟩ true,
          .check 2 false] := by
    decide +kernel
  have hsmall : descended.arena.size < UInt32.size := by decide +kernel
  have hfresh : (Call.spawned descended.calls.toList).Nodup := by decide +kernel
  exact ⟨hreaches, hstate.1, hstate.2.1, hstate.2.2, descent hreaches hsmall hfresh⟩

end SpatialGrammar
