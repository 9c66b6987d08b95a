/-
SpatialGrammar/Proofs/LargerBudget.lean

A larger budget only extends a run.

The budget decides whether another iteration is made and nothing else
(`Run.step_withBudget`).  So where a run may go on, the run with a larger budget makes the
same step, and it comes to the state in which the smaller one ends
(`Run.Reaches.withBudget`).  If no budget ended the run there, both end alike.  Otherwise
the larger run goes on: the records and the diagnostics grow (`RunState.GrowsTo`), and the
entities that wait stay in front of later ones unless they are taken back, which a
later pass does by their handles alone.
-/
import SpatialGrammar.Proofs.Noting

namespace SpatialGrammar

variable {α W ρ : Type}

/-! ### Budgets -/

/-- The budget is that of so many iterations or a larger one. -/
def Budget.Covers : Budget → Nat → Prop
  | bounded limit, m => m ≤ limit
  | unbounded, _ => True

theorem Budget.Covers.allows {b : Budget} {m : Nat} (h : b.Covers m) {i : Nat}
    (hi : (bounded m).allows i = true) : b.allows i = true := by
  cases b with
  | bounded limit =>
    have hlt : i < m := of_decide_eq_true hi
    exact decide_eq_true (Nat.lt_of_lt_of_le hlt h)
  | unbounded => rfl

namespace Run

/-- The same run with another budget. -/
def withBudget (r : Run α W) (budget : Budget) : Run α W :=
  { r with settings := { r.settings with budget } }

variable [Scalar α] [Numeral α] [RandomSource ρ α]

theorem deriveFrom_withBudget (r : Run α W) (b : Budget) (failed : ExclusionSet)
    (ids : List SymbolId) (next : Sentence) (s : RunState W ρ) :
    (r.withBudget b).deriveFrom failed ids next s = r.deriveFrom failed ids next s := by
  induction ids generalizing next s with
  | nil => rfl
  | cons id ids ih =>
    -- what is drawn and what is excluded are read off other fields
    simp only [deriveFrom, ih]
    rfl

theorem retry_withBudget (r : Run α W) (b : Budget) (symbol : SymbolId) (s : RunState W ρ) :
    (r.withBudget b).retry symbol s = r.retry symbol s := by
  simp only [retry, derive, deriveFrom_withBudget]
  rfl

variable [World W ρ]

theorem passFrom_withBudget (r : Run α W) (b : Budget) (ids : List SymbolId) (next : Sentence)
    (waiting : Option SymbolId) (s : RunState W ρ) :
    (r.withBudget b).passFrom ids next waiting s = r.passFrom ids next waiting s := by
  induction ids generalizing next waiting s with
  | nil => rfl
  | cons id ids ih =>
    simp only [passFrom, ih]
    rfl

/-- No pass depends on the budget. -/
theorem pass_withBudget (r : Run α W) (b : Budget) (s : RunState W ρ) :
    (r.withBudget b).pass s = r.pass s :=
  r.passFrom_withBudget b ..

/-- **Where both budgets allow another iteration, the steps are the same.** -/
theorem step_withBudget {r : Run α W} {b : Budget} {s : RunState W ρ}
    (hr : r.settings.budget.allows s.iteration = true) (hb : b.allows s.iteration = true) :
    (r.withBudget b).step s = r.step s := by
  have hb' : (r.withBudget b).settings.budget.allows s.iteration = true := hb
  unfold step
  rw [if_pos hr, if_pos hb', pass_withBudget]
  rcases r.pass s with ⟨next, s'⟩ | ⟨symbol, s'⟩
  · rfl
  · simp only [afterViolation, retry_withBudget]
    rfl

/-- The states that a run reaches are reached with every larger budget. -/
theorem Reaches.withBudget {r : Run α W} {b : Budget}
    (hb : ∀ i, r.settings.budget.allows i = true → b.allows i = true) {s t : RunState W ρ}
    (h : r.Reaches s t) : (r.withBudget b).Reaches s t := by
  induction h with
  | refl => exact .refl
  | tail _ hstep ih =>
    have hallowed := allows_of_again hstep
    exact ih.tail ((step_withBudget hallowed (hb _ hallowed)).trans hstep)

/-- The run of a starting text ends so, given steps enough. -/
def Ends (r : Run α W) (w : W) (source : ρ) (f : Finished W ρ) : Prop :=
  ∃ fuel, r.run? fuel w source = some f

theorem Ends.unique {r : Run α W} {w : W} {source : ρ} {f f' : Finished W ρ}
    (h : r.Ends w source f) (h' : r.Ends w source f') : f = f' := by
  obtain ⟨_, hf⟩ := h
  obtain ⟨_, hf'⟩ := h'
  exact runFrom?_unique hf hf'

end Run

/-! ### What grows in a run -/

/-- The state `t` has the records and diagnostics of `s` and perhaps more behind them, and is in no
earlier iteration. -/
structure RunState.GrowsTo (s t : RunState W ρ) : Prop where
  records : s.records.toList <+: t.records.toList
  diagnostics : s.diagnostics.toList <+: t.diagnostics.toList
  /-- The last number of an iteration is shared by all later ones. -/
  iteration : s.iteration ≤ lastIteration → s.iteration ≤ t.iteration ∧ t.iteration ≤ lastIteration

namespace RunState.GrowsTo

variable {s t u : RunState W ρ}

theorem refl (s : RunState W ρ) : s.GrowsTo s :=
  ⟨List.prefix_rfl, List.prefix_rfl, fun h => ⟨Nat.le_refl _, h⟩⟩

theorem trans (h : s.GrowsTo t) (h' : t.GrowsTo u) : s.GrowsTo u where
  records := h.records.trans h'.records
  diagnostics := h.diagnostics.trans h'.diagnostics
  iteration := by
    intro hs
    obtain ⟨hst, ht⟩ := h.iteration hs
    obtain ⟨htu, hu⟩ := h'.iteration ht
    exact ⟨Nat.le_trans hst htu, hu⟩

theorem of_noted {k : Nat} (h : Noted s k t) (hrecords : t.records = s.records) : s.GrowsTo t := by
  obtain ⟨hiteration, noted, hnoted, -, -⟩ := h
  refine ⟨?_, ⟨noted, hnoted.symm⟩, fun hs => ?_⟩
  · rw [hrecords]
  · rw [hiteration]
    exact ⟨Nat.le_refl _, hs⟩

theorem commit (next : Sentence) (s : RunState W ρ) : s.GrowsTo (s.commit next) where
  records := by simp [RunState.commit]
  diagnostics := List.prefix_rfl
  iteration := fun h => ⟨Nat.le_min.mpr ⟨Nat.le_succ _, h⟩, Nat.min_le_right _ _⟩

variable [World W ρ]

theorem abandon (s : RunState W ρ) : s.GrowsTo s.abandon := by
  obtain ⟨_, _, _, ha⟩ := s.abandon_frame
  rw [ha]
  exact of_noted (.of_eq rfl rfl) rfl

variable [Scalar α] [Numeral α] [RandomSource ρ α]

theorem pass (r : Run α W) (s : RunState W ρ) : s.GrowsTo (r.pass s).state :=
  of_noted (r.pass_noted s).1 (r.pass_records s)

/-- What a pass leaves has grown, and so has what is left when its entities are taken back. -/
theorem of_violated {r : Run α W} {symbol : SymbolId} (h : r.pass s = .violated symbol t) :
    s.GrowsTo t.abandon := by
  have hp := pass r s
  rw [h] at hp
  exact hp.trans (abandon t)

theorem of_completed {r : Run α W} {next : Sentence} (h : r.pass s = .completed next t) :
    s.GrowsTo (t.commit next) := by
  have hp := pass r s
  rw [h] at hp
  exact hp.trans (commit next t)

theorem again {r : Run α W} (h : r.step s = .again t) : s.GrowsTo t := by
  rcases Run.step_again h with ⟨next, s', hp, -, rfl⟩ | ⟨symbol, s', hp, rfl⟩
  · exact of_completed hp
  · obtain ⟨_, _, _, _, _, hr⟩ := r.retry_frame symbol s'.abandon
    exact (of_violated hp).trans (of_noted (r.retry_noted symbol _) (by rw [hr]))

theorem reaches {r : Run α W} (h : r.Reaches s t) : s.GrowsTo t := by
  induction h with
  | refl => exact refl s
  | tail _ hstep ih => exact ih.trans (again hstep)

/-- A run ends in a report on a state that has grown, or gives up there. -/
theorem of_runFrom? {r : Run α W} {fuel : Nat} {f : Finished W ρ}
    (h : r.runFrom? fuel s = some f) :
    ∃ t, s.GrowsTo t ∧
      ((∃ termination, f = t.succeed termination) ∨ ∃ symbol, f = t.giveUp symbol) := by
  obtain ⟨t, hr, hdone⟩ := Run.reaches_of_runFrom? h
  have ht : s.GrowsTo t := reaches hr
  rcases Run.step_done hdone with ⟨-, rfl⟩ | ⟨next, s', -, hp, -, rfl⟩ | ⟨symbol, s', -, hp, rfl⟩
  · exact ⟨t, ht, .inl ⟨_, rfl⟩⟩
  · exact ⟨s'.commit next, ht.trans (of_completed hp), .inl ⟨_, rfl⟩⟩
  · exact ⟨s'.abandon, ht.trans (of_violated hp), .inr ⟨symbol, rfl⟩⟩

end RunState.GrowsTo

/-! ### Going on where another run stopped -/

/-- Whether an entity was told of the end by this request. -/
def Call.isSettle : Call → Bool
  | settle _ => true
  | _ => false

namespace Finished

/-- The requests before the entities are told of the end. -/
def requests (f : Finished W ρ) : List Call := f.calls.takeWhile (!·.isSettle)

/-- Whether the run ended because no further iteration was allowed. -/
def Exhausted (f : Finished W ρ) : Prop :=
  ∃ report, f.outcome = .ok report ∧ report.termination = .budgetExhausted

/-- One run was stopped before iteration `m` and ended in `f` with a report, and another went on
from there and ended in `f'`. -/
structure Continues (m : Nat) (f : Finished W ρ) (report : Report) (f' : Finished W ρ) : Prop where
  /-- Its first requests are those of the run that was stopped. -/
  requests : f.requests <+: f'.requests
  iterations : ∀ report', f'.outcome = .ok report' → report.iterations <+: report'.iterations
  diagnostics : ∀ report', f'.outcome = .ok report' → report.diagnostics <+: report'.diagnostics
  /-- So are the first entities that it reports, if the world does not give their handles again. -/
  spawned : (∀ e ∈ Call.spawned (f'.requests.drop f.requests.length), e ∉ report.spawned) →
    ∀ report', f'.outcome = .ok report' → report.spawned <+: report'.spawned
  failure : ∀ e, f'.outcome = .error e → m ≤ e.iteration

end Finished

namespace RunState

variable [World W ρ]

/-- What a run reports on the state in which it ends. -/
theorem outcome_succeed {termination : Termination} {s : RunState W ρ} {report : Report}
    (h : (s.succeed termination).outcome = .ok report) :
    report.termination = termination ∧ report.iterations = s.records.toList ∧
      report.diagnostics = s.diagnostics.toList := by
  simp only [succeed, s.finish_eq, Except.ok.injEq] at h
  subst h
  exact ⟨rfl, rfl, rfl⟩

theorem outcome_giveUp {symbol : SymbolId} {s : RunState W ρ} {e : RecoveryExhausted}
    (h : (s.giveUp symbol).outcome = .error e) : e.iteration = s.iteration := by
  simp only [giveUp, Except.error.injEq] at h
  subst h
  rfl

end RunState

variable [Scalar α] [Numeral α] [RandomSource ρ α] [World W ρ]

omit [Scalar α] [Numeral α] [RandomSource ρ α] [World W ρ] in
/-- Where nobody has been told of the end before, the requests are those that led to it. -/
theorem EndsBy.requests {s : RunState W ρ} {calls : List Call} {f : Finished W ρ}
    (h : EndsBy s calls f) (hnone : Call.settled (s.calls.toList ++ calls) = []) :
    f.requests = s.calls.toList ++ calls := by
  have hbefore : ∀ c ∈ s.calls.toList ++ calls, (!c.isSettle) = true := by
    intro c hc
    have hc' := List.filterMap_eq_nil_iff.mp hnone c hc
    cases c <;> simp_all [Call.settled?, Call.isSettle]
  have hbehind (es : List EntityId) : (es.map Call.settle).takeWhile (!·.isSettle) = [] := by
    cases es <;> rfl
  unfold Finished.requests
  rw [h.calls, List.takeWhile_append_of_pos hbefore, hbehind, List.append_nil]

omit [Scalar α] [Numeral α] [RandomSource ρ α] [World W ρ] in
/-- Whoever waits is in front of all that is reported in the end, if no handle is given again: only
by its handle is an entity taken back. -/
theorem EndsBy.pending_prefix {s : RunState W ρ} {ps : List PassTrace} {f : Finished W ρ}
    (h : EndsBy s (ps.flatMap PassTrace.calls) f) (hps : ∀ p ∈ ps, ∀ c ∈ p.requests, c.ofSymbol)
    (fresh : ∀ e ∈ Call.spawned (ps.flatMap PassTrace.calls), e ∉ s.awaiting.pending)
    {report : Report} (hreport : f.outcome = .ok report) :
    s.awaiting.pending <+: report.spawned := by
  -- what the passes take back they have made
  have hstays : ∀ e ∈ s.awaiting.pending, e ∉ Call.discarded (ps.flatMap PassTrace.calls) := by
    intro e he hgone
    rw [PassTrace.discarded_flatMap_calls hps] at hgone
    rw [PassTrace.spawned_flatMap_calls] at fresh
    exact fresh e ((PassTrace.flatMap_gone_sublist ps).subset hgone) he
  have hprefix := s.awaiting.filter_pending_prefix_hearAll (ps.flatMap PassTrace.calls)
  rw [List.filter_eq_self.mpr fun e he => by simpa using hstays e he] at hprefix
  rw [h.spawned report hreport]
  exact hprefix

/-- A run that stops in a state is continued by a run that goes on from there. -/
theorem Run.Reaches.continues {r : Run α W} {w : W} {source : ρ} {t : RunState W ρ}
    (h : r.Reaches (r.begin w source) t) {fuel : Nat} {f' : Finished W ρ}
    (hf' : r.runFrom? fuel t = some f') {report : Report}
    (hreport : (t.succeed .budgetExhausted).outcome = .ok report) {m : Nat} (hm : m ≤ t.iteration) :
    (t.succeed .budgetExhausted).Continues m report f' := by
  have hps := r.ofSymbol_passes fuel t
  have hstops : EndsBy t [] (t.succeed .budgetExhausted) :=
    Follows.succeed ⟨(List.append_nil _).symm, rfl⟩ _
  have hends : EndsBy t ((r.passes fuel t).flatMap PassTrace.calls) f' := .of_runFrom? hf'
  -- nobody is told of the end before `t`, nor later by the run that goes on
  have hnone : Call.settled t.calls.toList = [] := by
    obtain ⟨n, hbefore⟩ := Follows.of_reaches h
    rw [hbefore.calls, Call.settled_append,
      PassTrace.settled_flatMap_calls (r.ofSymbol_passes n _)]
    rfl
  have hrequests : (t.succeed .budgetExhausted).requests = t.calls.toList := by
    rw [hstops.requests (by rw [List.append_nil, hnone]), List.append_nil]
  have hrequests' : f'.requests = t.calls.toList ++ (r.passes fuel t).flatMap PassTrace.calls := by
    refine hends.requests ?_
    rw [Call.settled_append, hnone, PassTrace.settled_flatMap_calls hps, List.append_nil]
  obtain ⟨u, hgrows, hu⟩ := RunState.GrowsTo.of_runFrom? hf'
  have hshown : ∀ report', f'.outcome = .ok report' →
      report.iterations <+: report'.iterations ∧ report.diagnostics <+: report'.diagnostics := by
    intro report' hreport'
    obtain ⟨-, hiterations, hdiagnostics⟩ := RunState.outcome_succeed hreport
    obtain ⟨termination, rfl⟩ | ⟨symbol, rfl⟩ := hu
    · obtain ⟨-, hiterations', hdiagnostics'⟩ := RunState.outcome_succeed hreport'
      rw [hiterations, hiterations', hdiagnostics, hdiagnostics']
      exact ⟨hgrows.records, hgrows.diagnostics⟩
    · cases hreport'
  refine ⟨?_, fun _ h => (hshown _ h).1, fun _ h => (hshown _ h).2, ?_, ?_⟩
  · rw [hrequests, hrequests']
    exact List.prefix_append _ _
  · intro fresh report' hreport'
    rw [hrequests, hrequests', List.drop_left, hstops.spawned report hreport] at fresh
    rw [hstops.spawned report hreport]
    exact hends.pending_prefix hps fresh hreport'
  · intro e he
    have hlast : t.iteration ≤ RunState.lastIteration :=
      ((RunState.GrowsTo.reaches h).iteration (Nat.zero_le _)).2
    obtain ⟨termination, rfl⟩ | ⟨symbol, rfl⟩ := hu
    · cases he
    · rw [RunState.outcome_giveUp he]
      exact Nat.le_trans hm (hgrows.iteration hlast).1

/-- **A larger budget only extends a run.**  If a run with a bounded budget converges or gives up,
the run with the larger budget ends likewise.  If the budget is exhausted, the larger run
continues what was begun. -/
theorem Run.larger_budget (r : Run α W) {m : Nat} {b : Budget} (hb : b.Covers m) {w : W}
    {source : ρ} {f : Finished W ρ} (h : (r.withBudget (.bounded m)).Ends w source f) :
    (¬ f.Exhausted → ∀ f', (r.withBudget b).Ends w source f' ↔ f' = f) ∧
    ∀ report, f.outcome = .ok report → report.termination = .budgetExhausted →
      ∀ f', (r.withBudget b).Ends w source f' → f.Continues m report f' := by
  obtain ⟨fuel, hf⟩ := h
  obtain ⟨t, ht, hdone⟩ := reaches_of_run? hf
  have ht' : (r.withBudget b).Reaches ((r.withBudget b).begin w source) t :=
    ht.withBudget (b := b) fun i => hb.allows
  rcases hallows : (Budget.bounded m).allows t.iteration with - | -
  · -- the smaller budget is exhausted, and the larger run goes on
    have hstops : f = t.succeed .budgetExhausted := by
      have hno : ¬ (r.withBudget (.bounded m)).settings.budget.allows t.iteration = true := by
        rw [Bool.not_eq_true]
        exact hallows
      unfold step at hdone
      rw [if_neg hno] at hdone
      exact (Step.done.inj hdone).symm
    subst hstops
    refine ⟨fun hno => ?_, fun report hreport _ f' hf' => ?_⟩
    · obtain ⟨report, hreport, htermination, -⟩ := t.succeed_spec .budgetExhausted
      exact absurd ⟨report, hreport, htermination⟩ hno
    · obtain ⟨fuel', hf'⟩ := hf'
      obtain ⟨k, hk⟩ := ht'.runFrom? hf'
      exact ht'.continues hk hreport (Nat.le_of_not_lt (of_decide_eq_false hallows))
  · -- another iteration was allowed, so both runs end with the same step
    have hdone' : (r.withBudget b).step t = .done f :=
      (step_withBudget (r := r.withBudget (.bounded m)) hallows (hb.allows hallows)).trans hdone
    have hends : (r.withBudget b).Ends w source f := ht'.ends hdone'
    refine ⟨fun _ f' => ⟨fun hf' => hf'.unique hends, fun heq => heq ▸ hends⟩, ?_⟩
    intro report hreport htermination
    rcases step_done hdone with ⟨hno, -⟩ | ⟨_, _, -, -, -, rfl⟩ | ⟨_, _, -, -, rfl⟩
    · have hno' : (Budget.bounded m).allows t.iteration = false := hno
      rw [hallows] at hno'
      cases hno'
    · rw [(RunState.outcome_succeed hreport).1] at htermination
      cases htermination
    · cases hreport

/-- Why a run ended without failing, and the entities that it reports. -/
def Finished.ending? (f : Finished W ρ) : Option (Termination × List EntityId) :=
  match f.outcome with
  | .ok report => some (report.termination, report.spawned)
  | .error _ => none

theorem Run.Ends.of_ending? {r : Run α W} {fuel : Nat} {w : W} {source : ρ}
    {termination : Termination} {es : List EntityId}
    (h : (r.run? fuel w source).map Finished.ending? = some (some (termination, es))) :
    ∃ f report, r.Ends w source f ∧ f.outcome = .ok report ∧ report.termination = termination ∧
      report.spawned = es := by
  obtain ⟨f, hf, hending⟩ := Option.map_eq_some_iff.mp h
  unfold Finished.ending? at hending
  split at hending
  · next report hreport =>
    obtain ⟨htermination, hspawned⟩ := Prod.mk.inj (Option.some.inj hending)
    exact ⟨f, report, ⟨fuel, hf⟩, hreport, htermination, hspawned⟩
  · cases hending

/-- One iteration of the grammar is continued by a second one, by which it converges, whatever the
budget is. -/
theorem Run.larger_budget_rejecting :
    (∃ (f f' : Finished Rehearsal Replay) (report report' : Report),
      (rejecting.withBudget (.bounded 1)).Ends .rejecting ⟨#[0.5], 0⟩ f ∧
      f.outcome = .ok report ∧ report.spawned = [0, 1] ∧
      (rejecting.withBudget (.bounded 2)).Ends .rejecting ⟨#[0.5], 0⟩ f' ∧
      f'.outcome = .ok report' ∧ report'.spawned = [0, 1, 3] ∧ f.Continues 1 report f') ∧
    ∃ f : Finished Rehearsal Replay,
      (rejecting.withBudget (.bounded 2)).Ends .rejecting ⟨#[0.5], 0⟩ f ∧
      ∀ f', (rejecting.withBudget .unbounded).Ends .rejecting ⟨#[0.5], 0⟩ f' ↔ f' = f := by
  have hone : ((rejecting.withBudget (.bounded 1)).run? 5 .rejecting (⟨#[0.5], 0⟩ : Replay)).map
      Finished.ending? = some (some (.budgetExhausted, [0, 1])) := by decide +kernel
  have htwo : ((rejecting.withBudget (.bounded 2)).run? 5 .rejecting (⟨#[0.5], 0⟩ : Replay)).map
      Finished.ending? = some (some (.converged, [0, 1, 3])) := by decide +kernel
  obtain ⟨f, report, hf, hreport, htermination, hspawned⟩ := Ends.of_ending? hone
  obtain ⟨f', report', hf', hreport', htermination', hspawned'⟩ := Ends.of_ending? htwo
  refine ⟨⟨f, f', report, report', hf, hreport, hspawned, hf', hreport', hspawned', ?_⟩,
    f', hf', ?_⟩
  · have hcovers : (Budget.bounded 2).Covers 1 := Nat.le_succ 1
    exact (larger_budget rejecting hcovers hf).2 report hreport htermination f' hf'
  · refine (larger_budget rejecting (b := .unbounded) trivial hf').1 ?_
    rintro ⟨other, hother, hexhausted⟩
    obtain rfl := Except.ok.inj (hreport'.symm.trans hother)
    rw [htermination'] at hexhausted
    cases hexhausted

/-- A grammar whose second iteration makes one more object. -/
def Run.reissuing : Run Float32 Rehearsal where
  rules := .ofList [⟨"A", [⟨1, "<o B>"⟩]⟩]
  settings := ⟨.bounded 2, false, 1⟩
  start := "<o A>"
  violates := Rehearsal.violates

/-- A rehearsal that objects to that object, and has one handle for all. -/
def Rehearsal.reissuing : Rehearsal := ⟨#[7], false, [], [], ["B"], #[]⟩

/-- Where a handle is given twice, the second iteration takes back what the first one has left. -/
theorem Run.not_larger_budget_reissuing :
    ∃ (f f' : Finished Rehearsal Replay) (report report' : Report),
      (reissuing.withBudget (.bounded 1)).Ends .reissuing ⟨#[0.5], 0⟩ f ∧
      f.outcome = .ok report ∧ report.termination = .budgetExhausted ∧
      (reissuing.withBudget (.bounded 2)).Ends .reissuing ⟨#[0.5], 0⟩ f' ∧
      f'.outcome = .ok report' ∧ ¬ report.spawned <+: report'.spawned := by
  have hone : ((reissuing.withBudget (.bounded 1)).run? 5 .reissuing (⟨#[0.5], 0⟩ : Replay)).map
      Finished.ending? = some (some (.budgetExhausted, [7])) := by decide +kernel
  have htwo : ((reissuing.withBudget (.bounded 2)).run? 5 .reissuing (⟨#[0.5], 0⟩ : Replay)).map
      Finished.ending? = some (some (.converged, [])) := by decide +kernel
  obtain ⟨f, report, hf, hreport, htermination, hspawned⟩ := Ends.of_ending? hone
  obtain ⟨f', report', hf', hreport', -, hspawned'⟩ := Ends.of_ending? htwo
  refine ⟨f, f', report, report', hf, hreport, htermination, hf', hreport', ?_⟩
  rw [hspawned, hspawned']
  decide

end SpatialGrammar
