/-
SpatialGrammar/Proofs/Bookkeeping.lean

The report of a run is exact.

How often passes have failed is kept in four places: in the count of the present
iteration, in that of the whole run, in the records, and in the diagnostics.  They are
compared to the passes themselves, that is to the states in which the passes of the run
began (`Run.Path`).  `Booked` says that all of them agree; a pass that is completed and
one that fails each keep it, and what is reported in the end is read off it.
-/
import SpatialGrammar.Proofs.Noting
import SpatialGrammar.Proofs.Spelling
import SpatialGrammar.Proofs.Turns

namespace SpatialGrammar

variable {α W ρ : Type} [Scalar α] [Numeral α] [RandomSource ρ α]

/-! ### Sentences without text -/

/-- A sentence has no text just if it has no symbols. -/
def Sentence.Inked (s : Sentence) : Prop := s.text = "" ↔ s.isEmpty = true

theorem Token.raw_ne_empty {text : String} {s : ρ} {t : Token} (h : t ∈ (parse text s).1.tokens) :
    t.raw ≠ "" := by
  obtain ⟨body, -, hreading⟩ := Token.proper_of_mem_parse h
  have hraw : t.raw = rawOfBody body := congrArg Prod.fst hreading
  rw [hraw]
  intro hempty
  have hlist := congrArg String.toList hempty
  simp [rawOfBody] at hlist

namespace Sentence.Inked

theorem empty : Sentence.empty.Inked := iff_of_true rfl rfl

theorem append {s : Sentence} (h : s.Inked) {tokens : List Token}
    (htokens : ∀ t ∈ tokens, t.raw ≠ "") (a : Arena) (parent : Option SymbolId) :
    (s.append a tokens parent).1.Inked := by
  induction tokens generalizing s a with
  | nil => exact h
  | cons t tokens ih =>
    obtain ⟨ht, hrest⟩ := List.forall_mem_cons.mp htokens
    refine ih (s := ⟨s.symbols.push a.size, s.text ++ t.raw⟩) ?_ hrest (a.insert t parent)
    refine iff_of_false ?_ (by simp [isEmpty])
    intro hempty
    exact ht (String.append_eq_empty_iff.mp hempty).2

theorem read {next : Sentence} (h : next.Inked) (text : String) (parent : Option SymbolId)
    (s : RunState W ρ) : (s.read text parent next).1.Inked :=
  h.append (fun _ ht => Token.raw_ne_empty ht) _ _

theorem expand {next : Sentence} (h : next.Inked) (r : Run α W) (id : SymbolId)
    (excluded : List Nat) (s : RunState W ρ) : (r.expand id excluded next s).1.Inked := by
  unfold Run.expand
  rcases r.rules.lookup (s.arena.get id).name excluded s.source with ⟨- | drawn, source⟩
  · exact h
  · exact h.read drawn.template (some id) _

theorem writeInvariant (r : Run α W) : WriteInvariant ρ r fun _ next _ => next.Inked :=
  ⟨fun _ h => h, fun _ _ h => h, fun _ h => h.expand r ..⟩

theorem derive (r : Run α W) (s : RunState W ρ) : (r.derive s).1.Inked := by
  rcases hp : s.previous with - | previous
  · unfold Run.derive
    rw [hp]
    exact Inked.empty.read r.start none s
  · exact (writeInvariant r).derive hp .empty

variable [World W ρ]

theorem completed {r : Run α W} {s s' : RunState W ρ} {next : Sentence}
    (h : r.pass s = .completed next s') : next.Inked :=
  (writeInvariant r).completed h .empty

/-- Every sentence that a run reads has no text just if it has no symbols. -/
theorem of_reaches {r : Run α W} {w : W} {source : ρ} {s : RunState W ρ}
    (h : r.Reaches (r.begin w source) s) : s.current.Inked := by
  cases h with
  | refl => exact Inked.empty.read r.start none _
  | tail _ hstep =>
    rcases Run.step_again hstep with ⟨next, s', hp, -, rfl⟩ | ⟨symbol, s', hp, rfl⟩
    · exact completed hp
    · exact derive r _

end Sentence.Inked

/-! ### The passes of a run -/

namespace Run

variable [World W ρ]

/-- The states in which the passes of a run begin, in order, from the state of the first one. -/
def starts (r : Run α W) : Nat → RunState W ρ → List (RunState W ρ)
  | 0, _ => []
  | fuel + 1, s =>
    if r.settings.budget.allows s.iteration then
      s ::
        match r.step s with
        | .again t => starts r fuel t
        | .done _ => []
    else []

theorem passes_eq_map_starts (r : Run α W) (fuel : Nat) (s : RunState W ρ) :
    r.passes fuel s = (r.starts fuel s).map r.passTrace := by
  induction fuel generalizing s with
  | zero => rfl
  | succ fuel ih =>
    unfold passes starts
    split
    · rcases r.step s with t | f
      · exact congrArg _ (ih t)
      · rfl
    · rfl

/-- The run comes from `s` to another state by passes that begin in the given states. -/
inductive Path (r : Run α W) (s : RunState W ρ) : List (RunState W ρ) → RunState W ρ → Prop
  | refl : Path r s [] s
  | tail {before : List (RunState W ρ)} {t u : RunState W ρ} :
    Path r s before t → r.step t = .again u → Path r s (before ++ [t]) u

namespace Path

variable {r : Run α W} {s t u : RunState W ρ} {before : List (RunState W ρ)}

theorem reaches (h : r.Path s before t) : r.Reaches s t := by
  induction h with
  | refl => exact .refl
  | tail _ hstep ih => exact ih.tail hstep

theorem head (hstep : r.step s = .again t) (h : r.Path t before u) : r.Path s (s :: before) u := by
  induction h with
  | refl =>
    have hfirst : r.Path s ([] ++ [s]) t := .tail .refl hstep
    exact hfirst
  | tail _ hlast ih => exact Path.tail ih hlast

end Path

/-- A run that ends has come by a path to the state from which a step ends it. -/
theorem exists_path {r : Run α W} {fuel : Nat} {s : RunState W ρ} {f : Finished W ρ}
    (h : r.runFrom? fuel s = some f) : ∃ before t, r.Path s before t ∧ r.step t = .done f ∧
      r.starts fuel s = before ++ if r.settings.budget.allows t.iteration then [t] else [] := by
  induction fuel generalizing s with
  | zero => cases h
  | succ fuel ih =>
    unfold runFrom? at h
    unfold starts
    split at h
    · next g hs =>
      obtain rfl := Option.some.inj h
      exact ⟨[], s, .refl, hs, by rw [hs]; rfl⟩
    · next u hs =>
      obtain ⟨before, t, hpath, ht, hstarts⟩ := ih h
      refine ⟨s :: before, t, .head hs hpath, ht, ?_⟩
      rw [if_pos (allows_of_again hs), hs, List.cons_append, ← hstarts]

end Run

/-! ### Counting failures -/

namespace Run

variable [World W ρ]

/-- Whether the pass that begins in a state is one of the given iteration and fails. -/
def failsIn (r : Run α W) (i : Nat) (s : RunState W ρ) : Bool :=
  decide (s.iteration = i) && (r.pass s).failed

/-- No state that a run reaches has had more failed passes in its iteration than it may have. -/
theorem attempts_le_of_reaches {r : Run α W} {w : W} {source : ρ} {s : RunState W ρ}
    (h : r.Reaches (r.begin w source) s) : s.attempts ≤ r.settings.maxRecovery := by
  cases h with
  | refl => exact Nat.zero_le _
  | tail _ hstep => exact attempts_le_of_again hstep

/-- A sentence that is read for the first time is not empty, but perhaps
that of the starting text. -/
theorem isEmpty_of_reaches {r : Run α W} {w : W} {source : ρ} {s : RunState W ρ}
    (h : r.Reaches (r.begin w source) s) (hrecords : s.records.size ≠ 0)
    (hattempts : s.attempts = 0) : s.current.isEmpty = false := by
  cases h with
  | refl => exact absurd rfl hrecords
  | tail _ hstep =>
    rcases step_again hstep with ⟨next, s', -, hnext, rfl⟩ | ⟨symbol, s', hp, rfl⟩
    · exact hnext
    · rw [(retry_of_violated hp).2.2.2] at hattempts
      exact absurd hattempts (Nat.succ_ne_zero _)

end Run

/-- Whether an event is a violation in the given iteration. -/
def Diagnostic.isViolationOf (i : Nat) (d : Diagnostic) : Bool :=
  d.isViolation && decide (d.iteration = i)

/-- How many passes have failed in each iteration, the present one included. -/
def RunState.failures (s : RunState W ρ) : List Nat :=
  s.records.toList.map IterationRecord.recoveries ++ [s.attempts]

omit [Scalar α] [Numeral α] [RandomSource ρ α] in
/-- What is noted counts for the present iteration. -/
theorem Noted.countP {s t : RunState W ρ} {k : Nat} (h : Noted s k t) (i : Nat) :
    t.diagnostics.toList.countP (Diagnostic.isViolationOf i) =
      s.diagnostics.toList.countP (Diagnostic.isViolationOf i) +
        if i = s.iteration then k else 0 := by
  obtain ⟨-, noted, hnoted, hiteration, rfl⟩ := h
  rw [hnoted, List.countP_append]
  congr 1
  -- what was added has one number, so for an iteration it counts wholly or not at all
  split
  · next hi =>
    refine List.countP_congr fun d hd => ?_
    simp [Diagnostic.isViolationOf, hi, hiteration d hd]
  · next hi =>
    refine List.countP_eq_zero.mpr fun d hd => ?_
    simp [Diagnostic.isViolationOf, hiteration d hd, Ne.symm hi]

/-- One failure more in the last iteration. -/
theorem getD_append_succ (l : List Nat) (n i : Nat) :
    (l ++ [n + 1]).getD i 0 = (l ++ [n]).getD i 0 + if i = l.length then 1 else 0 := by
  rcases Nat.lt_trichotomy i l.length with hlt | rfl | hgt
  · simp [List.getElem?_append_left hlt, Nat.ne_of_lt hlt]
  · simp
  · have hle : l.length + 1 ≤ i := hgt
    simp [List.getElem?_eq_none, hle, Nat.ne_of_gt hgt]

theorem getD_append_zero (l : List Nat) (i : Nat) : (l ++ [0]).getD i 0 = l.getD i 0 := by
  rcases Nat.lt_trichotomy i l.length with hlt | rfl | hgt
  · simp [List.getElem?_append_left hlt]
  · simp
  · have hle : l.length + 1 ≤ i := hgt
    simp [List.getElem?_eq_none, hle, Nat.le_of_lt hgt]

variable [World W ρ]

/-- All counts of a state agree with each other and with the passes that have been made, which
began in the given states. -/
structure Booked (r : Run α W) (before : List (RunState W ρ)) (s : RunState W ρ) : Prop where
  size_le : s.records.size ≤ before.length
  iteration : s.iteration = s.records.size
  index : s.records.toList.map IterationRecord.index = List.range s.records.size
  /-- Every iteration was allowed, and the present one if a pass of it has been made. -/
  allowed : ∀ i < s.records.size, r.settings.budget.allows i = true
  attempted : s.attempts ≠ 0 → r.settings.budget.allows s.iteration = true
  recoveries : s.recoveries = s.failures.sum
  recoveries_le : ∀ k ∈ s.records.toList.map IterationRecord.recoveries, k ≤ r.settings.maxRecovery
  rolledBack : ∀ i, before.countP (r.failsIn i) = s.failures.getD i 0
  violations : ∀ i,
    s.diagnostics.toList.countP (Diagnostic.isViolationOf i) = s.failures.getD i 0
  sorted : s.diagnostics.toList.Pairwise fun d d' => d.iteration ≤ d'.iteration
  iteration_le : ∀ d ∈ s.diagnostics.toList, d.iteration ≤ s.iteration
  /-- Before the first pass of an iteration nothing is noted in it, but when the starting text is
  read. -/
  iteration_lt : s.attempts = 0 → ∀ d ∈ s.diagnostics.toList, d.iteration < max s.records.size 1

namespace Booked

variable {r : Run α W} {s t : RunState W ρ} {before : List (RunState W ρ)}

omit [Scalar α] [Numeral α] [RandomSource ρ α] [World W ρ] in
/-- What is noted comes after all that was noted before. -/
theorem sorted_noted {k : Nat} (h : Noted s k t)
    (hsorted : s.diagnostics.toList.Pairwise fun d d' => d.iteration ≤ d'.iteration)
    (hle : ∀ d ∈ s.diagnostics.toList, d.iteration ≤ s.iteration) :
    (t.diagnostics.toList.Pairwise fun d d' => d.iteration ≤ d'.iteration) ∧
      ∀ d ∈ t.diagnostics.toList, d.iteration ≤ s.iteration := by
  obtain ⟨-, noted, hnoted, hiteration, -⟩ := h
  rw [hnoted]
  refine ⟨List.pairwise_append.mpr ⟨hsorted, ?_, ?_⟩, List.forall_mem_append.mpr ⟨hle, ?_⟩⟩
  · refine List.pairwise_of_forall_mem_list fun d hd d' hd' => ?_
    rw [hiteration d hd, hiteration d' hd']
  · intro d hd d' hd'
    rw [hiteration d' hd']
    exact hle d hd
  · exact fun d hd => Nat.le_of_eq (hiteration d hd)

theorem begin (r : Run α W) (w : W) (source : ρ) : Booked r [] (r.begin w source) := by
  have hn : Noted (.initial w source) 0 (r.begin w source) :=
    RunState.read_noted r.start none .empty (.initial w source)
  obtain ⟨hsorted, hle⟩ := sorted_noted hn .nil (by simp [RunState.initial])
  have hfailures : (r.begin w source).failures = [0] := rfl
  have hnone (i : Nat) : ([0] : List Nat).getD i 0 = 0 := getD_append_zero [] i
  refine ⟨Nat.le_refl _, rfl, rfl, ?_, ?_, rfl, ?_, ?_, ?_, hsorted, hle, ?_⟩
  · exact fun i hi => absurd hi (Nat.not_lt_zero i)
  · exact fun h => absurd rfl h
  · exact fun k hk => nomatch hk
  · intro i
    rw [hfailures, hnone]
    rfl
  · intro i
    rw [hn.countP i, hfailures, hnone]
    exact (Nat.zero_add _).trans (ite_self 0)
  · exact fun _ d hd => Nat.lt_of_le_of_lt (hle d hd) Nat.one_pos

/-- A pass that fails counts once more, be the sentence written anew or not. -/
theorem failed (h : Booked r before s) (hallowed : r.settings.budget.allows s.iteration = true)
    (hfails : (r.pass s).failed = true) (hn : Noted s 1 t) (hrecords : t.records = s.records)
    (hattempts : t.attempts = s.attempts + 1) (hrecoveries : t.recoveries = s.recoveries + 1) :
    Booked r (before ++ [s]) t := by
  obtain ⟨hsorted, hle⟩ := sorted_noted hn h.sorted h.iteration_le
  -- the present iteration has its place behind the records
  have hfailures (i : Nat) : t.failures.getD i 0 =
      s.failures.getD i 0 + if i = s.iteration then 1 else 0 := by
    rw [h.iteration]
    unfold RunState.failures
    rw [hrecords, hattempts, getD_append_succ]
    simp
  refine ⟨?_, ?_, ?_, ?_, ?_, ?_, ?_, ?_, ?_, hsorted, ?_, ?_⟩
  · rw [hrecords, List.length_append]
    exact Nat.le_add_right_of_le h.size_le
  · rw [hn.1, hrecords, h.iteration]
  · rw [hrecords]
    exact h.index
  · rw [hrecords]
    exact h.allowed
  · intro _
    rw [hn.1]
    exact hallowed
  · rw [hrecoveries, h.recoveries]
    unfold RunState.failures
    rw [hrecords, hattempts]
    simp [Nat.add_assoc]
  · rw [hrecords]
    exact h.recoveries_le
  · intro i
    rw [List.countP_append, h.rolledBack, hfailures]
    simp [Run.failsIn, hfails, eq_comm]
  · intro i
    rw [hn.countP, h.violations, hfailures]
  · rw [hn.1]
    exact hle
  · intro h0
    rw [hattempts] at h0
    exact absurd h0 (Nat.succ_ne_zero _)

/-- Likewise where the sentence is written anew for another attempt. -/
theorem violated (h : Booked r before s) (hallowed : r.settings.budget.allows s.iteration = true)
    {symbol : SymbolId} {s' : RunState W ρ} (hp : r.pass s = .violated symbol s') :
    Booked r (before ++ [s]) s'.abandon ∧ Booked r (before ++ [s]) (r.retry symbol s'.abandon) := by
  have hfails : (r.pass s).failed = true := by rw [hp]; rfl
  have hrecoveries : s'.recoveries = s.recoveries := by simpa [hp] using r.pass_recoveries s
  have hrecords : s'.records = s.records := by simpa [hp] using r.pass_records s
  have hattempts : s'.attempts = s.attempts := by simpa [hp] using r.pass_attempts s
  have hn : Noted s 1 s'.abandon := by
    obtain ⟨_, _, _, ha⟩ := s'.abandon_frame
    have hs' : Noted s 1 s' := by simpa [hp, PassResult.failed] using (r.pass_noted s).1
    rw [ha]
    exact hs'.trans (.of_eq rfl rfl)
  obtain ⟨_, _, _, ha⟩ := s'.abandon_frame
  obtain ⟨_, _, _, _, _, hr⟩ := r.retry_frame symbol s'.abandon
  refine ⟨h.failed hallowed hfails hn ?_ ?_ ?_,
    h.failed hallowed hfails (hn.trans (r.retry_noted symbol _)) ?_ ?_ ?_⟩
  · rw [ha, ← hrecords]
  · rw [ha, ← hattempts]
  · rw [ha, ← hrecoveries]
  · rw [hr, ha, ← hrecords]
  · rw [hr, ha, ← hattempts]
  · rw [hr, ha, ← hrecoveries]

/-- A pass that is completed closes the account of its iteration and opens that of the next one. -/
theorem committed (h : Booked r before s) (hallowed : r.settings.budget.allows s.iteration = true)
    {next : Sentence} {s' : RunState W ρ} (hp : r.pass s = .completed next s')
    (hle : s.attempts ≤ r.settings.maxRecovery) (hfew : before.length < RunState.lastIteration) :
    Booked r (before ++ [s]) (s'.commit next) := by
  have hn : Noted s 0 s' := by simpa [hp, PassResult.failed] using (r.pass_noted s).1
  have hrecords : s'.records = s.records := by simpa [hp] using r.pass_records s
  have hattempts : s'.attempts = s.attempts := by simpa [hp] using r.pass_attempts s
  have hrecoveries : s'.recoveries = s.recoveries := by simpa [hp] using r.pass_recoveries s
  have hentered : (s'.commit next).records.toList =
      s.records.toList ++ [⟨s.iteration, s'.current.text, s.attempts⟩] := by
    rw [← hn.1, ← hattempts, ← hrecords]
    exact Array.toList_push
  have hsize : (s'.commit next).records.size = s.records.size + 1 := by
    rw [← Array.length_toList, hentered, List.length_append, Array.length_toList]
    rfl
  -- there have been few passes, so the last number has not been reached
  have hiteration : (s'.commit next).iteration = s.records.size + 1 := by
    show min (s'.iteration + 1) RunState.lastIteration = _
    rw [hn.1, h.iteration]
    exact Nat.min_eq_left (Nat.le_trans (Nat.succ_le_succ h.size_le) hfew)
  have hfailures : (s'.commit next).failures = s.failures ++ [0] := by
    unfold RunState.failures
    rw [hentered, List.map_append]
    rfl
  obtain ⟨hsorted, hlast⟩ := sorted_noted hn h.sorted h.iteration_le
  have hlt : ∀ d ∈ (s'.commit next).diagnostics.toList, d.iteration < s.records.size + 1 := by
    intro d hd
    rw [← h.iteration]
    exact Nat.lt_succ_of_le (hlast d hd)
  refine ⟨?_, ?_, ?_, ?_, ?_, ?_, ?_, ?_, ?_, hsorted, ?_, ?_⟩
  · rw [hsize, List.length_append]
    exact Nat.succ_le_succ h.size_le
  · rw [hiteration, hsize]
  · rw [hentered, List.map_append, h.index, hsize, List.range_succ, h.iteration]
    rfl
  · intro i hi
    rw [hsize] at hi
    rcases Nat.lt_succ_iff_lt_or_eq.mp hi with hi | rfl
    · exact h.allowed i hi
    · rw [← h.iteration]
      exact hallowed
  · exact fun h0 => absurd rfl h0
  · show s'.recoveries = _
    rw [hrecoveries, h.recoveries, hfailures]
    simp
  · rw [hentered, List.map_append]
    exact List.forall_mem_append.mpr ⟨h.recoveries_le, by simpa using hle⟩
  · intro i
    rw [List.countP_append, h.rolledBack, hfailures, getD_append_zero]
    simp [Run.failsIn, hp, PassResult.failed]
  · intro i
    rw [hfailures, getD_append_zero, ← h.violations]
    exact (hn.countP i).trans (by simp)
  · intro d hd
    rw [hiteration]
    exact Nat.le_of_lt (hlt d hd)
  · intro _ d hd
    rw [hsize]
    exact Nat.lt_of_lt_of_le (hlt d hd) (Nat.le_max_left _ _)

/-- **All counts agree in every state that a run comes to**, as long as iterations
have numbers of their own. -/
theorem of_path {w : W} {source : ρ} (h : r.Path (r.begin w source) before s)
    (hfew : before.length ≤ RunState.lastIteration) : Booked r before s := by
  induction h with
  | refl => exact begin r w source
  | @tail before t u hpath hstep ih =>
    rw [List.length_append] at hfew
    have ht := ih (Nat.le_of_succ_le hfew)
    have hallowed := Run.allows_of_again hstep
    rcases Run.step_again hstep with ⟨next, s', hp, -, rfl⟩ | ⟨symbol, s', hp, rfl⟩
    · exact ht.committed hallowed hp (Run.attempts_le_of_reaches hpath.reaches) hfew
    · exact (ht.violated hallowed hp).2

end Booked

/-! ### Reports -/

/-- What is exact about a report. -/
structure Report.Exact (settings : Settings) (report : Report) : Prop where
  index : report.iterations.map IterationRecord.index = List.range report.iterations.length
  length_le : ∀ limit, settings.budget = .bounded limit → report.iterations.length ≤ limit
  length_eq : ∀ limit, settings.budget = .bounded limit → report.termination = .budgetExhausted →
    report.iterations.length = limit
  converged_iff : report.termination = .converged ↔
    1 ≤ report.iterations.length ∧ report.finalSentence = ""
  recoveries : report.recoveries = (report.iterations.map IterationRecord.recoveries).sum
  /-- A record tells how many violations were noted in its iteration, which are not too many. -/
  violations : ∀ i record, report.iterations[i]? = some record →
    record.recoveries = report.diagnostics.countP (Diagnostic.isViolationOf i) ∧
      record.recoveries ≤ settings.maxRecovery
  sorted : report.diagnostics.Pairwise fun d d' => d.iteration ≤ d'.iteration
  iteration_lt : ∀ d ∈ report.diagnostics, d.iteration < max report.iterations.length 1

/-- What is exact about a failure, given the states in which the passes of the run began and the
requests of the run. -/
structure RecoveryExhausted.Exact (r : Run α W) (starts : List (RunState W ρ)) (calls : List Call)
    (e : RecoveryExhausted) : Prop where
  attempts : e.attempts = r.settings.maxRecovery + 1
  rolledBack : starts.countP (r.failsIn e.iteration) = e.attempts
  /-- The symbol is the object by which the last pass failed, whose entity was the last one
  to be found in violation. -/
  symbol : ∃ last id s' entity, starts.getLast? = some last ∧ r.pass last = .violated id s' ∧
    (s'.arena.get id).kind = .object ∧ (s'.arena.get id).entity = some entity ∧
    (calls.filter Call.isViolation).getLast? = some (.check entity true) ∧
    e.symbol = (s'.arena.get id).raw

namespace Booked

variable {r : Run α W} {s : RunState W ρ} {before : List (RunState W ρ)}

theorem rolledBack_iteration (h : Booked r before s) :
    before.countP (r.failsIn s.iteration) = s.attempts := by
  rw [h.rolledBack, h.iteration]
  unfold RunState.failures
  simp

/-- What is reported of a state whose counts agree is exact. -/
theorem report_exact (h : Booked r before s) (hattempts : s.attempts = 0)
    {termination : Termination}
    (hexhausted : termination = .budgetExhausted → r.settings.budget.allows s.iteration = false)
    (hconverged : termination = .converged ↔ 1 ≤ s.records.size ∧ s.current.text = "")
    {report : Report} (hreport : (s.succeed termination).outcome = .ok report) :
    report.Exact r.settings := by
  simp only [RunState.succeed, s.finish_eq] at hreport
  obtain rfl := Except.ok.inj hreport
  have hfailures : s.failures = s.records.toList.map IterationRecord.recoveries ++ [0] := by
    unfold RunState.failures
    rw [hattempts]
  refine ⟨?_, ?_, ?_, ?_, ?_, ?_, h.sorted, ?_⟩
  · simpa using h.index
  · intro limit hlimit
    refine Nat.le_of_not_lt fun hlt => ?_
    have hallowed := h.allowed limit (by simpa using hlt)
    simp [hlimit, Budget.allows] at hallowed
  · intro limit hlimit hend
    have hover := hexhausted hend
    simp only [hlimit, Budget.allows, decide_eq_false_iff_not, h.iteration] at hover
    refine Nat.le_antisymm (Nat.le_of_not_lt fun hlt => ?_) (by simpa using hover)
    have hallowed := h.allowed limit (by simpa using hlt)
    simp [hlimit, Budget.allows] at hallowed
  · simpa using hconverged
  · show s.recoveries = _
    rw [h.recoveries, hfailures]
    simp
  · intro i record hi
    have hmem : record.recoveries ∈ s.records.toList.map IterationRecord.recoveries :=
      List.mem_map_of_mem (List.mem_of_getElem? hi)
    refine ⟨?_, h.recoveries_le _ hmem⟩
    rw [h.violations, hfailures, getD_append_zero, List.getD_eq_getElem?_getD, List.getElem?_map]
    exact (congrArg (fun o => (Option.map IterationRecord.recoveries o).getD 0) hi).symm
  · simpa using h.iteration_lt hattempts

end Booked

/-- Where a failed pass ends the run, the iteration has failed too often. -/
theorem Run.maxRecovery_lt_of_done {r : Run α W} {s s' : RunState W ρ} {f : Finished W ρ}
    {symbol : SymbolId} (h : r.step s = .done f)
    (hallowed : r.settings.budget.allows s.iteration = true)
    (hp : r.pass s = .violated symbol s') : r.settings.maxRecovery < s'.abandon.attempts := by
  unfold step at h
  rw [if_pos hallowed, hp] at h
  unfold afterViolation at h
  dsimp only at h
  split at h
  · assumption
  · cases h

omit [Scalar α] [Numeral α] [RandomSource ρ α] in
/-- A run that gives up after a failed pass takes back and notifies, and makes no more tests. -/
theorem RunState.calls_giveUp (symbol : SymbolId) (s' : RunState W ρ) :
    ∃ gone left : List EntityId, (s'.abandon.giveUp symbol).calls =
      s'.calls.toList ++ (gone.map .discard ++ left.map .settle) := by
  have habandoned : s'.abandon.calls =
      s'.calls ++ (s'.spawnedThisPass.toList.map Call.discard).toArray := by
    simp only [abandon, s'.rollBack_eq]
  refine ⟨s'.spawnedThisPass.toList, s'.abandon.awaiting.pending, ?_⟩
  simp only [giveUp, s'.abandon.finish_eq, habandoned]
  simp

omit [Scalar α] [Numeral α] [RandomSource ρ α] in
/-- So its last violation is the one by which that pass failed. -/
theorem RunState.getLast?_violations_giveUp {s' : RunState W ρ} (symbol : SymbolId)
    {entity : EntityId} {calls : List Call}
    (hcalls : s'.calls.toList = calls ++ [.check entity true]) :
    ((s'.abandon.giveUp symbol).calls.filter Call.isViolation).getLast? =
      some (.check entity true) := by
  obtain ⟨gone, left, heq⟩ := s'.calls_giveUp symbol
  have hnone : (gone.map Call.discard ++ left.map Call.settle).filter Call.isViolation = [] := by
    refine List.filter_eq_nil_iff.mpr fun c hc => ?_
    rcases List.mem_append.mp hc with hc | hc <;> obtain ⟨_, -, rfl⟩ := List.mem_map.mp hc <;>
      exact Bool.false_ne_true
  rw [heq, List.filter_append, hnone, List.append_nil, hcalls, List.filter_append]
  exact List.getLast?_concat

/-- **What a run reports is exact**, if it has fewer passes than there
are numbers for iterations. -/
theorem Run.bookkeeping {r : Run α W} {fuel : Nat} {w : W} {source : ρ} {f : Finished W ρ}
    (h : r.run? fuel w source = some f)
    (hfew : (r.passes fuel (r.begin w source)).length < UInt32.size) :
    (∀ report, f.outcome = .ok report → report.Exact r.settings) ∧
    ∀ e, f.outcome = .error e → e.Exact r (r.starts fuel (r.begin w source)) f.calls := by
  obtain ⟨before, t, hpath, hdone, hstarts⟩ := exists_path h
  rw [passes_eq_map_starts, List.length_map] at hfew
  have hfew : (r.starts fuel (r.begin w source)).length ≤ RunState.lastIteration :=
    Nat.le_sub_one_of_lt hfew
  have hle := attempts_le_of_reaches hpath.reaches
  rw [hstarts, List.length_append] at hfew
  have ht : Booked r before t := .of_path hpath (Nat.le_of_add_right_le hfew)
  rcases step_done hdone with ⟨hover, rfl⟩ | ⟨next, s', hallowed, hp, hnext, rfl⟩ |
    ⟨symbol, s', hallowed, hp, rfl⟩
  · -- no further iteration is allowed, so the present one has not begun
    have hattempts : t.attempts = 0 := by
      by_contra hne
      rw [ht.attempted hne] at hover
      cases hover
    have hfull : ¬ (1 ≤ t.records.size ∧ t.current.text = "") := by
      rintro ⟨hsize, htext⟩
      have hempty := (Sentence.Inked.of_reaches hpath.reaches).mp htext
      rw [isEmpty_of_reaches hpath.reaches (Nat.ne_of_gt hsize) hattempts] at hempty
      cases hempty
    refine ⟨fun report hreport => ?_, fun e he => ?_⟩
    · exact ht.report_exact hattempts (fun _ => hover) (iff_of_false (by rintro ⟨⟩) hfull) hreport
    · cases he
  · -- the last pass leaves nothing to read
    rw [if_pos hallowed] at hfew
    have hlast := ht.committed hallowed hp hle hfew
    refine ⟨fun report hreport => ?_, fun e he => ?_⟩
    · refine hlast.report_exact rfl (by rintro ⟨⟩) (iff_of_true rfl ⟨?_, ?_⟩) hreport
      · exact (Array.size_push ..).ge.trans' (Nat.le_add_left 1 _)
      · exact (Sentence.Inked.completed hp).mpr hnext
    · cases he
  · -- the last pass fails once too often
    obtain ⟨hlast, -⟩ := ht.violated hallowed hp
    have hover := maxRecovery_lt_of_done hdone hallowed hp
    obtain ⟨hkind, entity, calls, hentity, hcalls⟩ := (r.pass_noted t).2 symbol s' hp
    obtain ⟨_, _, _, ha⟩ := s'.abandon_frame
    have hattempts : s'.abandon.attempts = t.attempts + 1 := by
      rw [ha]
      simpa [hp] using r.pass_attempts t
    rw [if_pos hallowed] at hstarts
    refine ⟨fun report hreport => ?_, fun e he => ?_⟩
    · cases hreport
    · obtain rfl :
          ⟨s'.abandon.iteration, s'.abandon.attempts, (s'.abandon.arena.get symbol).raw⟩ = e :=
        Except.error.inj he
      refine ⟨?_, ?_, t, symbol, s', entity, ?_, hp, hkind, hentity, ?_, ?_⟩
      · refine Nat.le_antisymm ?_ hover
        rw [hattempts]
        exact Nat.succ_le_succ hle
      · rw [hstarts]
        exact hlast.rolledBack_iteration
      · rw [hstarts]
        exact List.getLast?_concat
      · exact RunState.getLast?_violations_giveUp symbol hcalls
      · rw [ha]

/-- The outcome of a run in numbers: the records and failures of a report, or the iteration and the
failures of a run that gave up. -/
def Finished.figures (f : Finished W ρ) : Nat × Nat ⊕ Nat × Nat :=
  match f.outcome with
  | .ok report => .inl (report.iterations.length, report.recoveries)
  | .error e => .inr (e.iteration, e.attempts)

/-- The same grammar with and without patience for the third object: one pass of the second
iteration is taken back, and either the run goes on or that is once too often. -/
theorem Run.bookkeeping_rejecting :
    (∃ (f : Finished Rehearsal Replay) (report : Report),
      rejecting.run? 5 .rejecting (⟨#[0.5], 0⟩ : Replay) = some f ∧ f.outcome = .ok report ∧
      report.iterations.length = 2 ∧ report.recoveries = 1 ∧ report.Exact rejecting.settings) ∧
    let impatient := { rejecting with settings := ⟨.bounded 2, false, 0⟩ }
    ∃ (f : Finished Rehearsal Replay) (e : RecoveryExhausted),
      impatient.run? 5 .rejecting (⟨#[0.5], 0⟩ : Replay) = some f ∧ f.outcome = .error e ∧
      e.iteration = 1 ∧ e.attempts = 1 ∧
      e.Exact impatient (impatient.starts 5 (impatient.begin .rejecting (⟨#[0.5], 0⟩ : Replay)))
        f.calls := by
  constructor
  · have hmap : (rejecting.run? 5 .rejecting (⟨#[0.5], 0⟩ : Replay)).map Finished.figures =
        some (.inl (2, 1)) := by decide +kernel
    obtain ⟨f, hf, hfigures⟩ := Option.map_eq_some_iff.mp hmap
    unfold Finished.figures at hfigures
    split at hfigures
    · next report hreport =>
      obtain ⟨hlength, hrecoveries⟩ := Prod.mk.inj (Sum.inl.inj hfigures)
      exact ⟨f, report, hf, hreport, hlength, hrecoveries,
        (bookkeeping hf (by decide +kernel)).1 report hreport⟩
    · cases hfigures
  · intro impatient
    have hmap : (impatient.run? 5 .rejecting (⟨#[0.5], 0⟩ : Replay)).map Finished.figures =
        some (.inr (1, 1)) := by decide +kernel
    obtain ⟨f, hf, hfigures⟩ := Option.map_eq_some_iff.mp hmap
    unfold Finished.figures at hfigures
    split at hfigures
    · cases hfigures
    · next e he =>
      obtain ⟨hiteration, hattempts⟩ := Prod.mk.inj (Sum.inr.inj hfigures)
      exact ⟨f, e, hf, he, hiteration, hattempts,
        (bookkeeping hf (by decide +kernel)).2 e he⟩

end SpatialGrammar
