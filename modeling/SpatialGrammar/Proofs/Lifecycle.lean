/-
SpatialGrammar/Proofs/Lifecycle.lean

Every entity that a run makes is taken back once or hears once of the end.

Three lists of the state are behind this: the entities of the pass, those that wait,
and the transcript.  The first two are functions of the third (`Transcribed`,
`Follows`), which is all that has to be proved of the state; what is left is a matter
of transcripts.
-/
import SpatialGrammar.Decimal.Layout
import SpatialGrammar.Derivation.Rehearsal
import SpatialGrammar.Proofs.RunRule
import SpatialGrammar.Proofs.Transcript
import SpatialGrammar.Random.Replay

namespace SpatialGrammar

variable {α W ρ : Type}

/-! ### What the state keeps of a pass -/

/-- Whether a pass ends in a violation. -/
def PassResult.failed : PassResult W ρ → Bool
  | .completed .. => false
  | .violated .. => true

/-- The state `s` of a pass that began in `s₀` and has made the given requests: the entities of the
pass are those of the requests, and those who wait are the ones who wait by the requests. -/
structure Transcribed (s₀ : RunState W ρ) (requests : List Call) (s : RunState W ρ) : Prop where
  calls : s.calls.toList = s₀.calls.toList ++ requests
  ofSymbol : ∀ c ∈ requests, c.ofSymbol
  spawned : s.spawnedThisPass.toList = Call.spawned requests
  awaiting : s.awaiting = s₀.awaiting.hearAll requests

namespace Transcribed

variable {s₀ s t : RunState W ρ} {requests : List Call}

/-- One request more. -/
theorem push (h : Transcribed s₀ requests s) (c : Call) (hc : c.ofSymbol)
    (hcalls : t.calls = s.calls.push c)
    (hspawned : t.spawnedThisPass.toList = s.spawnedThisPass.toList ++ Call.spawned [c])
    (hawaiting : t.awaiting = s.awaiting.hear c) : Transcribed s₀ (requests ++ [c]) t where
  calls := by rw [hcalls, Array.toList_push, h.calls, List.append_assoc]
  ofSymbol := by
    intro d hd
    rcases List.mem_append.mp hd with hd | hd
    · exact h.ofSymbol d hd
    · rw [List.mem_singleton.mp hd]; exact hc
  spawned := by rw [hspawned, h.spawned, Call.spawned_append]
  awaiting := by rw [hawaiting, h.awaiting, Awaiting.hearAll_append]; rfl

/-- No request. -/
theorem frame (h : Transcribed s₀ requests s) (hcalls : t.calls = s.calls)
    (hspawned : t.spawnedThisPass = s.spawnedThisPass) (hawaiting : t.awaiting = s.awaiting) :
    Transcribed s₀ requests t :=
  ⟨hcalls ▸ h.calls, h.ofSymbol, hspawned ▸ h.spawned, hawaiting ▸ h.awaiting⟩

/-- A test is at most one request. -/
theorem check (h : Transcribed s₀ requests s) (r : Run α W) (waiting : Option SymbolId) :
    ∃ requests, Transcribed s₀ requests (r.check waiting s).2 := by
  rcases r.check_cases waiting s with ⟨-, hc⟩ | ⟨_, e, -, -, -, hc⟩ | ⟨_, e, -, -, -, hc⟩ <;>
    rw [hc]
  · exact ⟨_, h⟩
  · exact ⟨_, h.push (.check e false) rfl rfl (List.append_nil _).symm rfl⟩
  · exact ⟨_, h.push (.check e true) rfl rfl (List.append_nil _).symm rfl⟩

/-- An entity that is made is one request. -/
theorem spawn [World W ρ] (h : Transcribed s₀ requests s) (id : SymbolId) :
    ∃ e request, (s.spawn id).arena = s.arena.setEntity id e ∧
      Transcribed s₀ (requests ++ [.spawn e request]) (s.spawn id) :=
  ⟨_, _, rfl, h.push (.spawn _ _) rfl rfl Array.toList_push rfl⟩

/-- The transcript tells which requests a pass has made. -/
theorem unique {xs ys : List Call} (hx : Transcribed s₀ xs s) (hy : Transcribed s₀ ys s) :
    xs = ys :=
  List.append_cancel_left (hx.calls.symm.trans hy.calls)

variable [Scalar α] [Numeral α] [RandomSource ρ α]

/-- Expanding a symbol is no request. -/
theorem expand (h : Transcribed s₀ requests s) (r : Run α W) (id : SymbolId) (excluded : List Nat)
    (next : Sentence) : Transcribed s₀ requests (r.expand id excluded next s).2 := by
  obtain ⟨_, _, _, he⟩ := r.expand_frame id excluded next s
  rw [he]
  exact h.frame rfl rfl rfl

variable [World W ρ]

theorem passInvariant (r : Run α W) (s₀ : RunState W ρ) :
    PassInvariant r fun _ _ _ s => ∃ requests, Transcribed s₀ requests s where
  method := by
    rintro id rest next waiting s - ⟨requests, h⟩
    rcases s.dispatch_cases id waiting with
      ⟨_, hd⟩ | ⟨_, e, call, found, _, _, -, -, -, -, hd⟩ <;> rw [hd]
    · exact ⟨_, h.frame rfl rfl rfl⟩
    · exact ⟨_, h.push (.method e call found) rfl rfl (List.append_nil _).symm rfl⟩
  invalid := fun _ h => h
  check := by
    rintro ids next waiting s - ⟨requests, h⟩
    exact h.check r waiting
  rule := by
    rintro id rest next s - ⟨requests, h⟩
    exact ⟨_, h.expand r id [] next⟩
  object := by
    rintro id rest next s - ⟨requests, h⟩
    obtain ⟨_, _, -, hspawn⟩ := h.spawn id
    exact ⟨_, hspawn.expand r id [] next⟩

/-- A pass makes requests and changes the lists of the state by them. -/
theorem pass (r : Run α W) (s : RunState W ρ) :
    ∃ requests, Transcribed s requests (r.pass s).state := by
  have hs : ∃ requests, Transcribed s requests { s with spawnedThisPass := #[] } :=
    ⟨[], by simp, by simp, rfl, rfl⟩
  refine (passInvariant r s).state ?_ hs
  rintro waiting t ⟨requests, h⟩
  exact h.check r waiting

end Transcribed

/-! ### The transcript of a run -/

variable [Scalar α] [Numeral α] [RandomSource ρ α] [World W ρ]

/-- What the pass that begins in a state asks of the world. -/
def Run.passTrace (r : Run α W) (s : RunState W ρ) : PassTrace :=
  ⟨(r.pass s).state.calls.toList.drop s.calls.size, (r.pass s).failed⟩

/-- What each of the passes of a run asks of the world, in order, from the state in which the first
one begins. -/
def Run.passes (r : Run α W) : Nat → RunState W ρ → List PassTrace
  | 0, _ => []
  | fuel + 1, s =>
    if r.settings.budget.allows s.iteration then
      r.passTrace s ::
        match r.step s with
        | .again t => passes r fuel t
        | .done _ => []
    else []

/-- The requests of a pass, by which the state of the run is changed. -/
theorem Run.passTrace_spec (r : Run α W) (s : RunState W ρ) :
    Transcribed s (r.passTrace s).requests (r.pass s).state := by
  obtain ⟨requests, h⟩ := Transcribed.pass r s
  have he : (r.passTrace s).requests = requests := by
    show (r.pass s).state.calls.toList.drop s.calls.size = requests
    rw [h.calls]
    exact List.drop_left' Array.length_toList
  rwa [he]

/-- The state `t` follows from `s` by the given requests: they are kept in the transcript, and they
decide who waits. -/
structure Follows (s : RunState W ρ) (requests : List Call) (t : RunState W ρ) : Prop where
  calls : t.calls.toList = s.calls.toList ++ requests
  awaiting : t.awaiting = s.awaiting.hearAll requests

/-- A pass that is completed leaves its entities waiting. -/
theorem Follows.of_completed {r : Run α W} {s s' : RunState W ρ} {next : Sentence}
    (h : r.pass s = .completed next s') : Follows s (r.passTrace s).calls s' := by
  have hp := r.passTrace_spec s
  have hc : (r.passTrace s).calls = (r.passTrace s).requests := by
    simp [PassTrace.calls, Run.passTrace, h, PassResult.failed]
  rw [hc]
  rw [h] at hp
  exact ⟨hp.calls, hp.awaiting⟩

/-- A pass that fails takes them back, one by one. -/
theorem Follows.of_violated {r : Run α W} {s s' : RunState W ρ} {symbol : SymbolId}
    (h : r.pass s = .violated symbol s') : Follows s (r.passTrace s).calls s'.abandon := by
  have hp := r.passTrace_spec s
  have hc : (r.passTrace s).calls =
      (r.passTrace s).requests ++ s'.spawnedThisPass.toList.map .discard := by
    have hs : s'.spawnedThisPass.toList = (r.passTrace s).spawned := by
      have := hp.spawned
      rwa [h] at this
    rw [hs]
    simp [PassTrace.calls, Run.passTrace, h, PassResult.failed]
  rw [h] at hp
  rw [hc]
  constructor
  · simp only [RunState.abandon, s'.rollBack_eq, Array.toList_append]
    have hcalls : s'.calls.toList = s.calls.toList ++ (r.passTrace s).requests := hp.calls
    rw [hcalls, List.append_assoc]
  · simp only [RunState.abandon, s'.rollBack_eq, Awaiting.hearAll_append,
      Awaiting.hearAll_map_discard]
    have hawaiting : s'.awaiting = s.awaiting.hearAll (r.passTrace s).requests := hp.awaiting
    rw [hawaiting]

/-- A step that goes on makes the requests of its pass. -/
theorem Follows.of_again {r : Run α W} {s t : RunState W ρ} (h : r.step s = .again t) :
    Follows s (r.passTrace s).calls t := by
  rcases Run.step_again h with ⟨next, s', hp, -, rfl⟩ | ⟨symbol, s', hp, rfl⟩
  · exact ⟨(of_completed hp).calls, (of_completed hp).awaiting⟩
  · have hv := of_violated hp
    obtain ⟨_, _, _, _, _, hr⟩ := r.retry_frame symbol s'.abandon
    rw [hr]
    exact ⟨hv.calls, hv.awaiting⟩

/-- What has been asked for when a state is reached are the requests of some passes. -/
theorem Follows.of_reaches {r : Run α W} {s t : RunState W ρ} (h : r.Reaches s t) :
    ∃ n, Follows s ((r.passes n s).flatMap PassTrace.calls) t := by
  induction h using Relation.ReflTransGen.head_induction_on with
  | refl => exact ⟨0, by simp [Run.passes], rfl⟩
  | @head s u hstep _ ih =>
    obtain ⟨n, hn⟩ := ih
    have hu := of_again hstep
    have hb := Run.allows_of_again hstep
    have hpasses : r.passes (n + 1) s = r.passTrace s :: r.passes n u := by
      simp [Run.passes, hb, hstep]
    refine ⟨n + 1, ?_, ?_⟩
    · rw [hpasses, List.flatMap_cons, hn.calls, hu.calls, List.append_assoc]
    · rw [hpasses, List.flatMap_cons, hn.awaiting, hu.awaiting, Awaiting.hearAll_append]

/-- The passes of a run begin in states that it reaches. -/
theorem Run.reaches_of_mem_passes {r : Run α W} {fuel : Nat} {s : RunState W ρ} {p : PassTrace}
    (h : p ∈ r.passes fuel s) : ∃ t, r.Reaches s t ∧ p = r.passTrace t := by
  induction fuel generalizing s with
  | zero => simp [passes] at h
  | succ fuel ih =>
    unfold passes at h
    split at h
    · rcases List.mem_cons.mp h with rfl | h
      · exact ⟨s, .refl, rfl⟩
      · split at h
        · next u hu =>
          obtain ⟨t, ht, hpt⟩ := ih h
          exact ⟨t, .head hu ht, hpt⟩
        · simp at h
    · simp at h

/-- The run ends in `f`, from `s` by the given requests: whoever waits then hears of the end, in
order, and is reported. -/
structure EndsBy (s : RunState W ρ) (requests : List Call) (f : Finished W ρ) : Prop where
  calls : f.calls =
    s.calls.toList ++ requests ++ (s.awaiting.hearAll requests).pending.map Call.settle
  spawned : ∀ report, f.outcome = .ok report →
    report.spawned = (s.awaiting.hearAll requests).pending

omit [Scalar α] [Numeral α] [RandomSource ρ α] in
theorem Follows.succeed {s t : RunState W ρ} {requests : List Call}
    (h : Follows s requests t) (termination : Termination) :
    EndsBy s requests (t.succeed termination) := by
  simp only [RunState.succeed, t.finish_eq]
  refine ⟨?_, ?_⟩
  · simp [h.calls, h.awaiting]
  · rintro report hr
    cases hr
    rw [h.awaiting]

omit [Scalar α] [Numeral α] [RandomSource ρ α] in
theorem Follows.giveUp {s t : RunState W ρ} {requests : List Call}
    (h : Follows s requests t) (symbol : SymbolId) : EndsBy s requests (t.giveUp symbol) := by
  simp only [RunState.giveUp, t.finish_eq]
  refine ⟨?_, ?_⟩
  · simp [h.calls, h.awaiting]
  · rintro report hr
    cases hr

omit [Scalar α] [Numeral α] [RandomSource ρ α] [World W ρ] in
theorem Follows.trans_endsBy {s t : RunState W ρ} {xs ys : List Call} {f : Finished W ρ}
    (h : Follows s xs t) (hf : EndsBy t ys f) : EndsBy s (xs ++ ys) f := by
  have ha : t.awaiting.hearAll ys = s.awaiting.hearAll (xs ++ ys) := by
    rw [h.awaiting, Awaiting.hearAll_append]
  refine ⟨?_, ?_⟩
  · rw [hf.calls, h.calls, ha]
    simp only [List.append_assoc]
  · intro report hr
    rw [hf.spawned report hr, ha]

/-- The requests of a run are those of its passes, and then the notifications. -/
theorem EndsBy.of_runFrom? {r : Run α W} {fuel : Nat} {s : RunState W ρ} {f : Finished W ρ}
    (h : r.runFrom? fuel s = some f) : EndsBy s ((r.passes fuel s).flatMap PassTrace.calls) f := by
  induction fuel generalizing s with
  | zero => cases h
  | succ fuel ih =>
    unfold Run.runFrom? at h
    split at h
    · next g hs =>
      cases h
      rcases Run.step_done hs with
        ⟨hb, rfl⟩ | ⟨next, s', hb, hp, -, rfl⟩ | ⟨symbol, s', hb, hp, rfl⟩
      · have he : r.passes (fuel + 1) s = [] := by simp [Run.passes, hb]
        rw [he]
        exact Follows.succeed ⟨by simp, rfl⟩ _
      · have he : r.passes (fuel + 1) s = [r.passTrace s] := by simp [Run.passes, hb, hs]
        have hf : Follows s (r.passTrace s).calls (s'.commit next) :=
          ⟨(Follows.of_completed hp).calls, (Follows.of_completed hp).awaiting⟩
        rw [he, List.flatMap_cons, List.flatMap_nil, List.append_nil]
        exact hf.succeed _
      · have he : r.passes (fuel + 1) s = [r.passTrace s] := by simp [Run.passes, hb, hs]
        rw [he, List.flatMap_cons, List.flatMap_nil, List.append_nil]
        exact (Follows.of_violated hp).giveUp _
    · next t hs =>
      have hb := Run.allows_of_again hs
      have he : r.passes (fuel + 1) s = r.passTrace s :: r.passes fuel t := by
        simp [Run.passes, hb, hs]
      rw [he, List.flatMap_cons]
      exact (Follows.of_again hs).trans_endsBy (ih h)

/-- While it reads its symbols no pass takes an entity back or tells it of the end. -/
theorem Run.ofSymbol_passes (r : Run α W) (fuel : Nat) (s : RunState W ρ) :
    ∀ p ∈ r.passes fuel s, ∀ c ∈ p.requests, c.ofSymbol := by
  induction fuel generalizing s with
  | zero => simp [Run.passes]
  | succ fuel ih =>
    unfold Run.passes
    split
    · intro p hp
      rcases List.mem_cons.mp hp with rfl | hp
      · exact (r.passTrace_spec s).ofSymbol
      · split at hp
        · exact ih _ p hp
        · simp at hp
    · simp

/-- What is made once and taken back at most once is either taken back or left, once. -/
theorem gone_or_left {made gone : List EntityId} (hmade : made.Nodup) (hgone : gone.Nodup)
    {e : EntityId} (he : e ∈ made) :
    gone.count e = 1 ∧ (made.filter (· ∉ gone)).count e = 0 ∨
      gone.count e = 0 ∧ (made.filter (· ∉ gone)).count e = 1 := by
  by_cases hd : e ∈ gone
  · have hnot : e ∉ made.filter (· ∉ gone) := fun hl => by
      simpa [hd] using (List.mem_filter.mp hl).2
    exact .inl ⟨List.count_eq_one_of_mem hgone hd, List.count_eq_zero.mpr hnot⟩
  · have hl : e ∈ made.filter (· ∉ gone) := List.mem_filter.mpr ⟨he, by simpa using hd⟩
    exact .inr ⟨List.count_eq_zero.mpr hd, List.count_eq_one_of_mem (hmade.filter _) hl⟩

/-- **Every entity that a run makes is taken back once or hears once of the end.**  If the world
never gives a handle twice, the requests of a run that ends are those of its passes and then the
notifications.  A pass that fails takes back its own entities, in order, before anything else is
asked for; no other entity is taken back, and all others are notified, in the order in which they
were made, which are the ones a report lists. -/
theorem Run.lifecycle {r : Run α W} {fuel : Nat} {w : W} {source : ρ} {f : Finished W ρ}
    (h : r.run? fuel w source = some f) (fresh : (Call.spawned f.calls).Nodup) :
    let passes := r.passes fuel (r.begin w source)
    let left := (Call.spawned f.calls).filter (· ∉ Call.discarded f.calls)
    f.calls = passes.flatMap PassTrace.calls ++ left.map Call.settle ∧
      (∀ p ∈ passes, ∀ c ∈ p.requests, c.ofSymbol) ∧
      (∀ e ∈ Call.spawned f.calls,
        (Call.discarded f.calls).count e = 1 ∧ (Call.settled f.calls).count e = 0 ∨
          (Call.discarded f.calls).count e = 0 ∧ (Call.settled f.calls).count e = 1) ∧
      ∀ report, f.outcome = .ok report → report.spawned = left := by
  intro passes left
  have hsymbols : ∀ p ∈ passes, ∀ c ∈ p.requests, c.ofSymbol := r.ofSymbol_passes fuel _
  have hends : EndsBy (r.begin w source) (passes.flatMap PassTrace.calls) f := .of_runFrom? h
  obtain ⟨hcalls, hreport⟩ := hends
  have hbegin : (r.begin w source).calls.toList = [] := rfl
  rw [hbegin, List.nil_append] at hcalls
  have hspawned : Call.spawned f.calls = passes.flatMap PassTrace.spawned := by
    rw [hcalls, Call.spawned_append, Call.spawned_map_settle, List.append_nil,
      PassTrace.spawned_flatMap_calls]
  have hdiscarded : Call.discarded f.calls = passes.flatMap PassTrace.gone := by
    rw [hcalls, Call.discarded_append, Call.discarded_map_settle, List.append_nil,
      PassTrace.discarded_flatMap_calls hsymbols]
  rw [hspawned] at fresh
  -- those who wait at the end, those who are left of the passes, and those never taken back
  have hpending : ((r.begin w source).awaiting.hearAll (passes.flatMap PassTrace.calls)).pending =
      left := by
    have hfresh : (Awaiting.empty.pending ++ passes.flatMap PassTrace.spawned).Nodup := fresh
    show (Awaiting.empty.hearAll (passes.flatMap PassTrace.calls)).pending =
      (Call.spawned f.calls).filter (· ∉ Call.discarded f.calls)
    rw [Awaiting.pending_hearAll_flatMap hsymbols hfresh, hspawned, hdiscarded,
      PassTrace.filter_spawned fresh]
    rfl
  rw [hpending] at hcalls hreport
  have hsettled : Call.settled f.calls = left := by
    rw [hcalls, Call.settled_append, Call.settled_map_settle,
      PassTrace.settled_flatMap_calls hsymbols, List.nil_append]
  refine ⟨hcalls, hsymbols, ?_, hreport⟩
  intro e he
  have hgone : (Call.discarded f.calls).Nodup := by
    rw [hdiscarded]
    exact fresh.sublist (PassTrace.flatMap_gone_sublist passes)
  rw [hsettled]
  exact gone_or_left (hspawned ▸ fresh) hgone he

/-- Two iterations of a grammar of which one alternative makes a third object. -/
def Run.rejecting : Run Float32 Rehearsal where
  rules := .ofList [⟨"A", [⟨1, "<o B>"⟩, ⟨2, "<o C>"⟩]⟩]
  settings := ⟨.bounded 2, false, 3⟩
  start := "<o A><o B>"
  violates := Rehearsal.violates

/-- A rehearsal that objects to that object. -/
def Rehearsal.rejecting : Rehearsal := ⟨#[], false, [], [], ["C"], #[]⟩

/-- In its second iteration the run takes back what it made and then makes something else. -/
theorem Run.lifecycle_rejecting :
    ∃ f : Finished Rehearsal Replay,
      rejecting.run? 5 .rejecting (⟨#[0.5], 0⟩ : Replay) = some f ∧
      (Call.spawned f.calls).Nodup ∧ Call.discarded f.calls = [2] ∧
      f.calls = (rejecting.passes 5 (rejecting.begin .rejecting (⟨#[0.5], 0⟩ : Replay))).flatMap
        PassTrace.calls ++ [0, 1, 3].map Call.settle ∧
      ∀ report, f.outcome = .ok report → report.spawned = [0, 1, 3] := by
  have hmap : (rejecting.run? 5 .rejecting (⟨#[0.5], 0⟩ : Replay)).map Finished.calls =
      some [.spawn 0 ⟨"A", ""⟩, .check 0 false, .spawn 1 ⟨"B", ""⟩, .check 1 false,
        .spawn 2 ⟨"C", ""⟩, .check 2 true, .discard 2, .spawn 3 ⟨"B", ""⟩, .check 3 false,
        .settle 0, .settle 1, .settle 3] := by
    decide +kernel
  obtain ⟨f, hf, hc⟩ := Option.map_eq_some_iff.mp hmap
  have hspawned : Call.spawned f.calls = [0, 1, 2, 3] := by rw [hc]; rfl
  have hdiscarded : Call.discarded f.calls = [2] := by rw [hc]; rfl
  have hfresh : (Call.spawned f.calls).Nodup := by rw [hspawned]; decide
  obtain ⟨hcalls, -, -, hreport⟩ := lifecycle hf hfresh
  rw [hspawned, hdiscarded] at hcalls hreport
  exact ⟨f, hf, hfresh, hdiscarded, hcalls, hreport⟩

end SpatialGrammar
