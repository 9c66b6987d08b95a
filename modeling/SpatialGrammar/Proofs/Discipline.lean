/-
SpatialGrammar/Proofs/Discipline.lean

Entities have their turns one after another.

The test of an entity comes after its methods, at whichever symbol ends them: the next
rule, the next object or the end of the sentence.  What is kept from symbol to symbol is
that it is the turn of the object that waits (`Turning`).  A pass is therefore over when
all turns are, and it fails only by its last test (`PassTrace.Orderly`).  The rest is
read off the transcript.
-/
import SpatialGrammar.Proofs.Lifecycle
import SpatialGrammar.Proofs.Lineage
import SpatialGrammar.Proofs.Turns

namespace SpatialGrammar

variable {α W ρ : Type}

/-! ### Transcripts in which all turns are over -/

namespace PassTrace

/-- The turns of a pass are over in the end, and the last test is the only one that may find a
violation: it does so if the pass fails. -/
structure Orderly (p : PassTrace) : Prop where
  turns : Call.Turns none p.requests none
  completed : p.failed = false → ∀ c ∈ p.requests, c.isViolation = false
  violated : p.failed = true → ∃ requests e, p.requests = requests ++ [.check e true] ∧
    ∀ c ∈ requests, c.isViolation = false

/-- A transcript of some passes, and perhaps of the end of a run, in which every request has its
place. -/
structure Disciplined (passes : List PassTrace) (calls : List Call) : Prop where
  /-- The requests are those of the passes, and then the entities hear of the end. -/
  calls_eq : ∃ left : List EntityId, calls = passes.flatMap PassTrace.calls ++ left.map .settle
  /-- Before the next entity is made there is one test, and it is of this one. -/
  spawn : ∀ before e request after, calls = before ++ .spawn e request :: after →
    ∃ bad, (after.takeWhile (!·.isSpawn)).filter Call.isCheck = [.check e bad]
  /-- A method is of the entity made last, and comes before its test. -/
  method : ∀ before e call found after, calls = before ++ .method e call found :: after →
    (∃ earlier request methods, before = earlier ++ .spawn e request :: methods ∧
      ∀ c ∈ methods, c.isMethodOf e) ∧
    ∃ methods bad rest, after = methods ++ .check e bad :: rest ∧ ∀ c ∈ methods, c.isMethodOf e
  /-- An entity that has been tested gets no more methods. -/
  check : ∀ before e bad after, calls = before ++ .check e bad :: after →
    ∀ c ∈ after, ¬ c.isMethodOf e
  /-- By a violation its pass ends, and the entities of the pass are taken back at once. -/
  violation : ∀ before e after, calls = before ++ .check e true :: after →
    ∃ earlier p later rest, passes = earlier ++ p :: later ∧ p.failed = true ∧
      before ++ [.check e true] = earlier.flatMap PassTrace.calls ++ p.requests ∧
      after = p.spawned.map .discard ++ rest

variable {ps : List PassTrace} {p : PassTrace}

theorem Orderly.turns_calls (h : p.Orderly) : Call.Turns none p.calls none := by
  unfold calls
  split
  · exact h.turns.append (.map_discard p.spawned)
  · exact h.turns.append (.nil none)

theorem turns_flatMap_calls (h : ∀ p ∈ ps, p.Orderly) :
    Call.Turns none (ps.flatMap calls) none := by
  induction ps with
  | nil => exact .nil none
  | cons p ps ih =>
    rw [List.flatMap_cons]
    exact (h p List.mem_cons_self).turns_calls.append
      (ih fun q hq => h q (List.mem_cons_of_mem p hq))

/-- A violation found in a pass is the end of what the pass asks for. -/
theorem Orderly.violation (h : p.Orderly) {before after : List Call} {e : EntityId}
    (hcalls : p.calls = before ++ .check e true :: after) :
    p.failed = true ∧ before ++ [.check e true] = p.requests ∧
      after = p.spawned.map .discard := by
  rcases hf : p.failed with - | -
  · have hc : p.calls = p.requests := by simp [calls, hf]
    have hmem : .check e true ∈ p.requests := by simp [← hc, hcalls]
    have hno := h.completed hf _ hmem
    simp [Call.isViolation] at hno
  obtain ⟨requests, e', hrequests, hno⟩ := h.violated hf
  have hdiscards : ∀ c ∈ p.spawned.map Call.discard, c.isViolation = false := by
    intro c hc
    obtain ⟨_, -, rfl⟩ := List.mem_map.mp hc
    rfl
  have hc : p.calls = requests ++ .check e' true :: p.spawned.map .discard := by
    simp [calls, hf, hrequests]
  rw [hc] at hcalls
  -- the two violations are the same one, for there is none before it and none behind it
  rcases List.append_eq_append_iff.mp hcalls with ⟨xs, hbefore, hxs⟩ | ⟨xs, hbefore, hxs⟩
  · rcases xs with - | ⟨c, xs⟩
    · obtain ⟨he, hafter⟩ := List.cons.inj hxs
      refine ⟨rfl, ?_, hafter.symm⟩
      rw [hrequests, hbefore, List.append_nil, he]
    · obtain ⟨-, htail⟩ := List.cons.inj hxs
      have hlater := hdiscards (.check e true) (by rw [htail]; simp)
      simp [Call.isViolation] at hlater
  · rcases xs with - | ⟨c, xs⟩
    · obtain ⟨he, hafter⟩ := List.cons.inj hxs
      refine ⟨rfl, ?_, hafter⟩
      rw [hrequests, hbefore, List.append_nil, he]
    · obtain ⟨rfl, -⟩ := List.cons.inj hxs
      have hearlier := hno (.check e true) (by rw [hbefore]; simp)
      simp [Call.isViolation] at hearlier

/-- A violation found in a run is the end of what one of its passes asks for. -/
theorem violation_of_orderly (h : ∀ p ∈ ps, p.Orderly) {left : List EntityId}
    {before after : List Call} {e : EntityId}
    (hcalls : ps.flatMap calls ++ left.map .settle = before ++ .check e true :: after) :
    ∃ earlier p later rest, ps = earlier ++ p :: later ∧ p.failed = true ∧
      before ++ [.check e true] = earlier.flatMap calls ++ p.requests ∧
      after = p.spawned.map .discard ++ rest := by
  induction ps generalizing before with
  | nil =>
    have hmem : Call.check e true ∈ left.map Call.settle := by
      rw [List.flatMap_nil, List.nil_append] at hcalls
      rw [hcalls]
      simp
    simp at hmem
  | cons p ps ih =>
    rw [List.flatMap_cons, List.append_assoc] at hcalls
    have hps : ∀ q ∈ ps, q.Orderly := fun q hq => h q (List.mem_cons_of_mem p hq)
    -- if it is not found in the first pass, it is found later
    have later (xs : List Call) (hbefore : before = p.calls ++ xs)
        (hxs : ps.flatMap calls ++ left.map .settle = xs ++ .check e true :: after) :
        ∃ earlier q later rest, p :: ps = earlier ++ q :: later ∧ q.failed = true ∧
          before ++ [.check e true] = earlier.flatMap calls ++ q.requests ∧
          after = q.spawned.map .discard ++ rest := by
      obtain ⟨earlier, q, later, rest, hsplit, hf, hrequests, hafter⟩ := ih hps hxs
      refine ⟨p :: earlier, q, later, rest, by rw [hsplit]; rfl, hf, ?_, hafter⟩
      rw [hbefore, List.flatMap_cons, List.append_assoc, List.append_assoc, hrequests]
    rcases List.append_eq_append_iff.mp hcalls with ⟨xs, hbefore, hxs⟩ | ⟨xs, hp, hxs⟩
    · exact later xs hbefore hxs
    · rcases xs with - | ⟨c, xs⟩
      · exact later [] (by rw [hp]; simp) hxs.symm
      · obtain ⟨rfl, hafter⟩ := List.cons.inj hxs
        obtain ⟨hf, hrequests, hdiscards⟩ := (h p List.mem_cons_self).violation hp
        exact ⟨[], p, ps, _, rfl, hf, hrequests, by rw [hafter, hdiscards]; rfl⟩

/-- **Where all turns are over and no entity is made twice, every request has its place.** -/
theorem Disciplined.of_orderly (h : ∀ p ∈ ps, p.Orderly) (left : List EntityId)
    (fresh : (Call.spawned (ps.flatMap calls ++ left.map .settle)).Nodup) :
    Disciplined ps (ps.flatMap calls ++ left.map .settle) := by
  have hturns : Call.Turns none (ps.flatMap calls ++ left.map .settle) none :=
    (turns_flatMap_calls h).append (.map_settle left)
  refine ⟨⟨left, rfl⟩, ?_, ?_, ?_, ?_⟩
  · -- an entity that is made
    intro before e request after hcalls
    rw [hcalls] at hturns
    obtain ⟨methods, bad, rest, rfl, hmethods, hrest⟩ := hturns.of_spawn.2.tested
    refine ⟨bad, ?_⟩
    have hspawn : ∀ c ∈ methods, (!c.isSpawn) = true := by
      intro c hc
      have := hmethods c hc
      cases c <;> simp_all [Call.isMethodOf, Call.isSpawn]
    have hcheck : methods.filter Call.isCheck = [] := by
      refine List.filter_eq_nil_iff.mpr fun c hc => ?_
      have := hmethods c hc
      cases c <;> simp_all [Call.isMethodOf, Call.isCheck]
    have hlast : (Call.check e bad :: rest).takeWhile (!·.isSpawn) =
        .check e bad :: rest.takeWhile (!·.isSpawn) := List.takeWhile_cons_of_pos rfl
    rw [List.takeWhile_append_of_pos hspawn, hlast, List.filter_append, hcheck, List.nil_append,
      List.filter_cons_of_pos rfl, hrest.filter_isCheck_takeWhile]
  · -- a method
    intro before e call found after hcalls
    rw [hcalls] at hturns
    obtain ⟨hbefore, hafter⟩ := hturns.of_method
    obtain ⟨methods, bad, rest, hrest, hmethods, -⟩ := hafter.tested
    exact ⟨hbefore.made, methods, bad, rest, hrest, hmethods⟩
  · -- a test
    intro before e bad after hcalls
    rw [hcalls] at hturns fresh
    exact hturns.not_isMethodOf fresh
  · -- a violation
    intro before e after hcalls
    exact violation_of_orderly h hcalls

end PassTrace

/-! ### Whose turn it is in a pass -/

/-- Whose turn it is when an object waits for its test. -/
def RunState.turn (s : RunState W ρ) (waiting : Option SymbolId) : Option EntityId :=
  waiting.bind fun id => (s.arena.get id).entity

/-- A pass that began in `s₀` has made the given requests, and it is the turn of the object that
waits. -/
structure Turning (s₀ : RunState W ρ) (ids : List SymbolId) (waiting : Option SymbolId)
    (s : RunState W ρ) (requests : List Call) : Prop where
  transcribed : Transcribed s₀ requests s
  turns : Call.Turns none requests (s.turn waiting)
  entity : ∀ id, waiting = some id → (s.arena.get id).entity ≠ none
  completed : ∀ c ∈ requests, c.isViolation = false
  lt_size : ∀ id ∈ ids, id < s.arena.size

/-- One request more that is not a violation. -/
theorem completed_push {requests : List Call} (h : ∀ c ∈ requests, c.isViolation = false) {c : Call}
    (hc : c.isViolation = false) : ∀ d ∈ requests ++ [c], d.isViolation = false := by
  intro d hd
  rcases List.mem_append.mp hd with hd | hd
  · exact h d hd
  · rw [List.mem_singleton.mp hd]
    exact hc

variable [Scalar α] [Numeral α] [RandomSource ρ α] [World W ρ]

theorem Turning.passInvariant (r : Run α W) (s₀ : RunState W ρ) :
    PassInvariant r fun ids _ waiting s => ∃ requests, Turning s₀ ids waiting s requests where
  method := by
    rintro id rest next waiting s - ⟨requests, h⟩
    have hlt : ∀ j ∈ rest, j < s.arena.size := fun j hj => h.lt_size j (List.mem_cons_of_mem id hj)
    rcases s.dispatch_cases id waiting with
      ⟨_, hd⟩ | ⟨object, e, call, found, _, _, rfl, he, -, -, hd⟩ <;> rw [hd]
    · exact ⟨_, h.transcribed.frame rfl rfl rfl, h.turns, h.entity, h.completed, hlt⟩
    · have hturns : Call.Turns none requests (some e) := he ▸ h.turns
      have hturn : s.turn (some object) = some e := he
      refine ⟨_, h.transcribed.push (.method e call found) rfl rfl (List.append_nil _).symm rfl,
        ?_, h.entity, completed_push h.completed rfl, hlt⟩
      show Call.Turns none (requests ++ [.method e call found]) (s.turn (some object))
      rw [hturn]
      exact hturns.push (.method e call found)
  invalid := by
    rintro id rest next waiting s - ⟨requests, h⟩
    exact ⟨_, h.transcribed, h.turns, h.entity, h.completed,
      fun j hj => h.lt_size j (List.mem_cons_of_mem id hj)⟩
  check := by
    rintro ids next waiting s hnone ⟨requests, h⟩
    rcases r.check_cases waiting s with
      ⟨hno, hc⟩ | ⟨id, e, rfl, he, -, hc⟩ | ⟨_, _, -, -, -, hc⟩
    · -- an object that waits has an entity, so none waits
      have hwaiting : waiting = none := by
        rcases waiting with - | id
        · rfl
        · exact absurd (hno id rfl) (h.entity id rfl)
      subst hwaiting
      rw [hc]
      exact ⟨_, h⟩
    · have hturns : Call.Turns none requests (some e) := he ▸ h.turns
      rw [hc]
      exact ⟨_, h.transcribed.push (.check e false) rfl rfl (List.append_nil _).symm rfl,
        hturns.push (.check e false), by simp, completed_push h.completed rfl, h.lt_size⟩
    · rw [hc] at hnone
      cases hnone
  rule := by
    rintro id rest next s - ⟨requests, h⟩
    obtain ⟨hgrow, -⟩ := r.expand_token id [] next s
    exact ⟨_, h.transcribed.expand r id [] next, h.turns, by simp, h.completed, fun j hj =>
      Nat.lt_of_lt_of_le (h.lt_size j (List.mem_cons_of_mem id hj)) hgrow⟩
  object := by
    rintro id rest next s - ⟨requests, h⟩
    have hid : id < s.arena.size := h.lt_size id List.mem_cons_self
    obtain ⟨e, request, harena, hspawn⟩ := h.transcribed.spawn id
    obtain ⟨hgrow, -⟩ := r.expand_token id [] next (s.spawn id)
    rw [harena, Arena.size_setEntity] at hgrow
    have hentity : ((r.expand id [] next (s.spawn id)).2.arena.get id).entity = some e := by
      rw [r.expand_entity, harena, Arena.get_setEntity_self hid]
    have hturn : (r.expand id [] next (s.spawn id)).2.turn (some id) = some e := hentity
    refine ⟨_, hspawn.expand r id [] next, ?_, ?_, completed_push h.completed rfl, fun j hj =>
      Nat.lt_of_lt_of_le (h.lt_size j (List.mem_cons_of_mem id hj)) hgrow⟩
    · rw [hturn]
      exact h.turns.push (.spawn e request)
    · rintro _ ⟨⟩
      rw [hentity]
      exact Option.some_ne_none e

/-- **The turns of a pass are over when it is**, and it fails by its last test only. -/
theorem Run.passTrace_orderly (r : Run α W) {s : RunState W ρ}
    (hlt : ∀ id ∈ s.current.symbols.toList, id < s.arena.size) : (r.passTrace s).Orderly := by
  have hstart : Turning s s.current.symbols.toList none { s with spawnedThisPass := #[] } [] :=
    ⟨⟨by simp, by simp, rfl, rfl⟩, .nil none, by simp, by simp, hlt⟩
  have hk := (Turning.passInvariant r s).pass ⟨[], hstart⟩
  have hp := r.passTrace_spec s
  rcases h : r.pass s with ⟨next, t⟩ | ⟨symbol, t⟩ <;> rw [h] at hk hp
  · obtain ⟨requests, ht⟩ := hk
    have hf : (r.passTrace s).failed = false := by simp [passTrace, h, PassResult.failed]
    rw [ht.transcribed.unique hp] at ht
    exact ⟨ht.turns, fun _ => ht.completed, fun hv => by rw [hf] at hv; cases hv⟩
  · -- the test by which it fails is of the object that waits
    obtain ⟨rest, next, waiting, u, ⟨requests, hu⟩, hc⟩ := hk
    have hf : (r.passTrace s).failed = true := by simp [passTrace, h, PassResult.failed]
    rcases r.check_cases waiting u with ⟨-, hd⟩ | ⟨_, _, -, -, -, hd⟩ | ⟨id, e, rfl, he, -, hd⟩ <;>
      rw [hd] at hc <;> cases hc
    have hrequests : (r.passTrace s).requests = requests ++ [.check e true] :=
      hp.unique (hu.transcribed.push (.check e true) rfl rfl (List.append_nil _).symm rfl)
    have hturns : Call.Turns none requests (some e) := he ▸ hu.turns
    refine ⟨?_, fun hv => ?_, fun _ => ⟨_, e, hrequests, hu.completed⟩⟩
    · rw [hrequests]
      exact hturns.push (.check e true)
    · rw [hf] at hv
      cases hv

/-! ### The transcript of a run -/

/-- In a run from a starting text all passes are orderly. -/
theorem Run.passes_orderly (r : Run α W) (fuel : Nat) (w : W) (source : ρ) :
    ∀ p ∈ r.passes fuel (r.begin w source), p.Orderly := by
  intro p hp
  obtain ⟨t, ht, rfl⟩ := reaches_of_mem_passes hp
  obtain ⟨_, hlayered⟩ := Layered.of_reaches ht
  exact r.passTrace_orderly hlayered.lt_size

/-- **Every request of a run has its place**, if the world never gives a handle twice: when a
pass is about to begin, and when the run has ended.  Every entity of a report has been tested
once, without violation. -/
theorem Run.discipline (r : Run α W) (w : W) (source : ρ) :
    (∀ s, r.Reaches (r.begin w source) s → (Call.spawned s.calls.toList).Nodup →
      ∃ n, PassTrace.Disciplined (r.passes n (r.begin w source)) s.calls.toList) ∧
    ∀ fuel f, r.run? fuel w source = some f → (Call.spawned f.calls).Nodup →
      PassTrace.Disciplined (r.passes fuel (r.begin w source)) f.calls ∧
      ∀ report, f.outcome = .ok report → ∀ e ∈ report.spawned,
        f.calls.filter (Call.isCheckOf e) = [.check e false] := by
  have hbegin : (r.begin w source).calls.toList = [] := rfl
  have horderly (n : Nat) := r.passes_orderly n w source
  refine ⟨?_, ?_⟩
  · -- a state that the run reaches
    intro s hs fresh
    obtain ⟨n, hn⟩ := Follows.of_reaches hs
    have hcalls : s.calls.toList = (r.passes n (r.begin w source)).flatMap PassTrace.calls ++
        ([] : List EntityId).map .settle := by
      rw [hn.calls, hbegin, List.nil_append, List.map_nil, List.append_nil]
    rw [hcalls] at fresh ⊢
    exact ⟨n, .of_orderly (horderly n) [] fresh⟩
  · -- the end of the run
    intro fuel f hf fresh
    have hends : EndsBy (r.begin w source) _ f := .of_runFrom? hf
    have hcalls := hends.calls
    rw [hbegin, List.nil_append] at hcalls
    have hdisciplined : PassTrace.Disciplined (r.passes fuel (r.begin w source)) f.calls := by
      rw [hcalls] at fresh ⊢
      exact .of_orderly (horderly fuel) _ fresh
    refine ⟨hdisciplined, ?_⟩
    intro report hreport e he
    have hspawned : Call.spawned f.calls =
        (r.passes fuel (r.begin w source)).flatMap PassTrace.spawned := by
      rw [hcalls, Call.spawned_append, Call.spawned_map_settle, List.append_nil,
        PassTrace.spawned_flatMap_calls]
    have hfresh : (Awaiting.empty.pending ++
        (r.passes fuel (r.begin w source)).flatMap PassTrace.spawned).Nodup := hspawned ▸ fresh
    -- it was made in a pass that was completed, and tested there
    have hkept : e ∈ (r.passes fuel (r.begin w source)).flatMap PassTrace.kept := by
      rw [hends.spawned report hreport] at he
      have hpending := Awaiting.pending_hearAll_flatMap
        (r.ofSymbol_passes fuel (r.begin w source)) hfresh
      have hempty : (r.begin w source).awaiting = Awaiting.empty := rfl
      rw [hempty, hpending] at he
      exact he
    obtain ⟨p, hp, hep⟩ := List.mem_flatMap.mp hkept
    have hcheck : .check e false ∈ p.requests := by
      unfold PassTrace.kept at hep
      split at hep
      · simp at hep
      next hfailed =>
      have hchecked : Call.checked p.requests = Call.spawned p.requests :=
        (horderly fuel p hp).turns.checked_eq_spawned
      have hmem : e ∈ Call.checked p.requests := by
        rw [hchecked]
        exact hep
      obtain ⟨c, hc, hce⟩ := List.mem_filterMap.mp hmem
      have hno := (horderly fuel p hp).completed (by simpa using hfailed) c hc
      cases c <;> simp_all [Call.checked?, Call.isViolation]
    have hturns : Call.Turns none f.calls none := by
      rw [hcalls]
      exact (PassTrace.turns_flatMap_calls (horderly fuel)).append (.map_settle _)
    refine hturns.filter_isCheckOf fresh ?_
    rw [hcalls]
    refine List.mem_append_left _ (List.mem_flatMap.mpr ⟨p, hp, ?_⟩)
    exact List.mem_append_left _ hcheck

/-- A grammar of which one alternative makes an object to object to. -/
def Run.turning : Run Float32 Rehearsal where
  rules := .ofList [⟨"A", [⟨1, "<o B><m Turn>"⟩, ⟨2, "<o C><m Turn>"⟩]⟩]
  settings := ⟨.bounded 2, false, 3⟩
  start := "<o A><m Turn><m Move>"
  violates := Rehearsal.violates

/-- A rehearsal with one method that objects to that object. -/
def Rehearsal.turning : Rehearsal := ⟨#[], false, ["Turn"], [], ["C"], #[]⟩

/-- In its second iteration the run finds a violation after a method, and takes the entity back. -/
theorem Run.discipline_turning :
    (∃ n, PassTrace.Disciplined (turning.passes n (turning.begin .turning (⟨#[0.5], 0⟩ : Replay)))
      (turning.next (turning.begin .turning (⟨#[0.5], 0⟩ : Replay))).calls.toList) ∧
    ∃ f : Finished Rehearsal Replay,
      turning.run? 5 .turning (⟨#[0.5], 0⟩ : Replay) = some f ∧ Call.discarded f.calls = [1] ∧
      PassTrace.Disciplined (turning.passes 5 (turning.begin .turning (⟨#[0.5], 0⟩ : Replay)))
        f.calls ∧
      ∀ report, f.outcome = .ok report → ∀ e ∈ report.spawned,
        f.calls.filter (Call.isCheckOf e) = [.check e false] := by
  have hmap : (turning.run? 5 .turning (⟨#[0.5], 0⟩ : Replay)).map (fun f =>
      (Call.spawned f.calls, Call.discarded f.calls)) = some ([0, 1, 2], [1]) := by
    decide +kernel
  obtain ⟨f, hf, hc⟩ := Option.map_eq_some_iff.mp hmap
  obtain ⟨hspawned, hdiscarded⟩ := Prod.mk.inj hc
  have hfresh : (Call.spawned f.calls).Nodup := by rw [hspawned]; decide
  have hgoes : turning.goesOn (turning.begin .turning (⟨#[0.5], 0⟩ : Replay)) = true := by
    decide +kernel
  have hnext : (Call.spawned
      (turning.next (turning.begin .turning (⟨#[0.5], 0⟩ : Replay))).calls.toList).Nodup := by
    decide +kernel
  obtain ⟨hreached, hended⟩ := discipline turning .turning (⟨#[0.5], 0⟩ : Replay)
  obtain ⟨hdisciplined, hreport⟩ := hended 5 f hf hfresh
  exact ⟨hreached _ (.single (step_eq_next hgoes)) hnext, f, hf, hdiscarded, hdisciplined, hreport⟩

end SpatialGrammar
