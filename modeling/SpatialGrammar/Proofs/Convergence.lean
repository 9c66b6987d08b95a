/-
SpatialGrammar/Proofs/Convergence.lean

Grammars without cycles come to an end.

The names of a grammar are ranked such that an alternative has only rules and objects of lower
ranks than its rule.  Whatever is drawn, and however often a sentence is written anew, the ranks
in the sentence of an iteration are then lower than those in the sentence before
(`Lowering.expand`).  So if the starting text has ranks of at most `R`, the sentence after `R + 1`
iterations has neither rules nor objects, and its pass leaves nothing.  An iteration has a limited
number of passes, and with this every step leaves fewer of them (`Ranking.again`).
-/
import SpatialGrammar.Proofs.Derivation

namespace SpatialGrammar

variable {α W ρ : Type}

/-! ### Ranks -/

/-- If the symbol is a rule or an object, its rank is at most `R`, and lower by `k`. -/
def Token.Ranked (rank : String → Nat) (R k : Nat) (t : Token) : Prop :=
  t.kind.expands = true → rank t.name + k ≤ R

/-- All rules and objects of a sentence have ranks that are at most `R`, and lower by `k`. -/
structure Sentence.Ranked (rank : String → Nat) (R k : Nat) (a : Arena) (s : Sentence) : Prop where
  spelt : s.Spelt a
  token : ∀ t ∈ s.tokens a, t.Ranked rank R k

/-- An alternative has only rules and objects of lower ranks than its rule. -/
def Descending [Scalar α] [Numeral α] [RandomSource ρ α] (rank : String → Nat)
    (rules : List (Rule α)) (source : ρ) : Prop :=
  ∀ rule ∈ rules, ∀ a ∈ rule.outputs, ∀ t ∈ (parse a.template source).1.tokens,
    t.kind.expands = true → rank t.name < rank rule.name

section Writing

variable {rank : String → Nat} {R k : Nat} {a b : Arena} {id : SymbolId} {ids : List SymbolId}
  {next s : Sentence}

/-- Old symbols keep their reading. -/
theorem Sentence.Ranked.congr (h : s.Ranked rank R k a) (hsize : a.size ≤ b.size)
    (htoken : ∀ id < a.size, (b.get id).toToken = (a.get id).toToken) : s.Ranked rank R k b where
  spelt := h.spelt.congr hsize htoken
  token := by
    rw [tokens_congr h.spelt.lt_size htoken]
    exact h.token

/-- When `ids` are still to be read of a sentence whose ranks are lower by `k`, what has been
written of the next one has ranks that are lower by one more. -/
structure Lowering (rank : String → Nat) (R k : Nat) (ids : List SymbolId) (next : Sentence)
    (a : Arena) : Prop where
  unread : ∀ id ∈ ids, id < a.size ∧ (a.get id).toToken.Ranked rank R k
  written : next.Ranked rank R (k + 1) a
  nonempty : next.isEmpty = false → k ≤ R

namespace Lowering

theorem start (h : s.Ranked rank R k a) : Lowering rank R k s.symbols.toList .empty a where
  unread id hid := ⟨h.spelt.lt_size id hid, h.token _ (List.mem_map_of_mem hid)⟩
  written := ⟨.empty a, by simp [Sentence.empty, Sentence.tokens]⟩
  nonempty := by rintro ⟨⟩

theorem skip (h : Lowering rank R k (id :: ids) next a) : Lowering rank R k ids next a :=
  ⟨fun j hj => h.unread j (List.mem_cons_of_mem id hj), h.written, h.nonempty⟩

theorem congr (h : Lowering rank R k ids next a) (hsize : a.size ≤ b.size)
    (htoken : ∀ id < a.size, (b.get id).toToken = (a.get id).toToken) :
    Lowering rank R k ids next b where
  unread id hid := by
    obtain ⟨hlt, hranked⟩ := h.unread id hid
    rw [htoken id hlt]
    exact ⟨Nat.lt_of_lt_of_le hlt hsize, hranked⟩
  written := h.written.congr hsize htoken
  nonempty := h.nonempty

variable [Scalar α] [Numeral α] [RandomSource ρ α]

/-- What is read of a text has the same kinds and names whatever the source gives. -/
theorem exists_of_mem_parse {text : String} {source : ρ} {t : Token}
    (h : t ∈ (parse text source).1.tokens) (source' : ρ) :
    ∃ t' ∈ (parse text source').1.tokens, t'.kind = t.kind ∧ t'.name = t.name := by
  have hmem : t.reading ∈ (parse text source').1.tokens.map Token.reading := by
    rw [Token.map_reading_parse text source', ← Token.map_reading_parse text source]
    exact List.mem_map_of_mem h
  obtain ⟨t', ht', heq⟩ := List.mem_map.mp hmem
  obtain ⟨-, hrest⟩ := Prod.mk.inj heq
  exact ⟨t', ht', Prod.mk.inj hrest⟩

variable {r : Run α W} {rules : List (Rule α)} {source : ρ}

/-- **What is written for a symbol has lower ranks.** -/
theorem expand (hrules : r.rules = .ofList rules) (hdescending : Descending rank rules source)
    {t : RunState W ρ} (h : Lowering rank R k (id :: ids) next t.arena) (excluded : List Nat)
    (hk : (t.arena.get id).kind.expands = true) :
    Lowering rank R k ids (r.expand id excluded next t).1
      (r.expand id excluded next t).2.arena := by
  have hranked := (h.unread id List.mem_cons_self).2 hk
  obtain ⟨hsize, htoken⟩ := r.expand_token id excluded next t
  obtain ⟨hspelt, ts, htokens, hts⟩ := r.expand_tokens id excluded h.written.spelt
  refine ⟨(h.skip.congr hsize htoken).unread, ⟨hspelt, ?_⟩, fun _ => ?_⟩
  · rw [htokens]
    refine List.forall_mem_append.mpr ⟨h.written.token, ?_⟩
    rcases hts with rfl | ⟨drawn, source', hdrawn, rfl⟩
    · simp
    -- the alternative is one of the rule that is meant for the symbol
    obtain ⟨rule, x, hrule, -, hx, -, htemplate⟩ := RuleTable.lookup_eq_some_iff.mp hdrawn
    rw [hrules, RuleTable.rule?_ofList] at hrule
    have hname : rule.name = (t.arena.get id).name := by simpa using List.find?_some hrule
    intro u hu hexpands
    obtain ⟨u', hu', hkind, huname⟩ := exists_of_mem_parse hu source
    have hlt := hdescending rule (List.mem_of_find?_eq_some hrule) x (List.mem_of_getElem? hx) u'
      (htemplate ▸ hu') (hkind ▸ hexpands)
    rw [huname, hname] at hlt
    omega
  · omega

/-- So it is with all that is written, by a pass and anew. -/
theorem writeInvariant (hrules : r.rules = .ofList rules)
    (hdescending : Descending rank rules source) : WriteInvariant ρ r (Lowering rank R k) where
  skip _ h := h.skip
  congr hsize htoken h := h.congr hsize htoken
  expand hk h := h.expand hrules hdescending _ hk

end Lowering

end Writing

/-! ### The sentences of a run -/

variable [Scalar α] [Numeral α] [RandomSource ρ α]

/-- What is so of a state with respect to the ranks: every iteration lowers them by one, so they
cannot be lowered more than `R + 1` times. -/
structure Ranking (rank : String → Nat) (R : Nat) (r : Run α W) (s : RunState W ρ) : Prop where
  current : s.current.Ranked rank R s.records.size s.arena
  previous : (s.previous = none ∧ s.records.size = 0) ∨ ∃ previous k,
    s.previous = some previous ∧ s.records.size = k + 1 ∧ previous.Ranked rank R k s.arena
  records_le : s.records.size ≤ R + 1
  iteration_le : s.iteration ≤ s.records.size
  attempts_le : s.attempts ≤ r.settings.maxRecovery

/-- How many more passes there may be after the next one. -/
def RunState.left (R : Nat) (r : Run α W) (s : RunState W ρ) : Nat :=
  (R + 1 - s.records.size) * (r.settings.maxRecovery + 1) + (r.settings.maxRecovery - s.attempts)

namespace Ranking

variable {r : Run α W} {rules : List (Rule α)} {rank : String → Nat} {R : Nat} {source : ρ}
  {s s' t : RunState W ρ} {next : Sentence} {symbol : SymbolId}

/-- The starting text is read. -/
theorem readStart (hstart : ∀ t ∈ (parse r.start source).1.tokens, t.kind.expands = true →
    rank t.name ≤ R) (s : RunState W ρ) :
    (r.readStart s).1.Ranked rank R 0 (r.readStart s).2.arena := by
  have hspelt := Sentence.Spelt.empty s.arena
  refine ⟨hspelt.append (fun t ht => Token.proper_of_mem_parse ht) none, ?_⟩
  have htokens : (r.readStart s).1.tokens (r.readStart s).2.arena =
      Sentence.empty.tokens s.arena ++ (parse r.start s.source).1.tokens :=
    (Sentence.tokens_append hspelt.lt_size (parse r.start s.source).1.tokens none).1
  rw [htokens]
  intro t ht hk
  obtain ⟨t', ht', hkind, hname⟩ := Lowering.exists_of_mem_parse
    (by simpa [Sentence.empty, Sentence.tokens] using ht) source
  exact hname ▸ hstart t' ht' (hkind ▸ hk)

theorem begin (hstart : ∀ t ∈ (parse r.start source).1.tokens, t.kind.expands = true →
    rank t.name ≤ R) (w : W) (s₀ : ρ) : Ranking rank R r (r.begin w s₀) where
  current := readStart hstart (.initial w s₀)
  previous := .inl ⟨rfl, rfl⟩
  records_le := Nat.zero_le _
  iteration_le := Nat.le_refl _
  attempts_le := Nat.zero_le _

variable [World W ρ]

/-- A completed pass is one record more. -/
theorem size_records_commit (hp : r.pass s = .completed next s') :
    (s'.commit next).records.size = s.records.size + 1 := by
  have hrecords : s'.records = s.records := by simpa [hp] using r.pass_records s
  show (s'.records.push _).size = _
  rw [Array.size_push, hrecords]

variable (hrules : r.rules = .ofList rules) (hdescending : Descending rank rules source)
include hrules hdescending

/-- A completed pass has lowered the ranks. -/
theorem commit (h : Ranking rank R r s) (hp : r.pass s = .completed next s')
    (hnext : next.isEmpty = false) :
    Ranking rank R r (s'.commit next) ∧ (s'.commit next).left R r < s.left R r := by
  have hlowering : Lowering rank R s.records.size [] next s'.arena :=
    (Lowering.writeInvariant hrules hdescending).completed hp (.start h.current)
  have hle := hlowering.nonempty hnext
  have hcurrent : s'.current = s.current := by simpa [hp] using r.pass_current s
  have hiteration : s'.iteration = s.iteration := by simpa [hp] using r.pass_iteration s
  obtain ⟨hgrow, htoken⟩ := r.pass_token s
  rw [hp] at hgrow htoken
  have hsize := size_records_commit hp
  refine ⟨⟨?_, .inr ⟨s.current, s.records.size, ?_, hsize, h.current.congr hgrow htoken⟩, ?_, ?_,
    Nat.zero_le _⟩, ?_⟩
  · rw [hsize]
    exact hlowering.written
  · exact congrArg some hcurrent
  · rw [hsize]
    exact Nat.succ_le_succ hle
  · rw [hsize]
    exact (Nat.min_le_left _ _).trans (Nat.succ_le_succ (hiteration ▸ h.iteration_le))
  · -- of one iteration less all passes are left
    have hless : R + 1 - s.records.size = (R + 1 - (s.records.size + 1)) + 1 := by omega
    unfold RunState.left
    rw [hsize, hless, Nat.succ_mul]
    show _ + (r.settings.maxRecovery - 0) < _
    omega

variable (hstart : ∀ t ∈ (parse r.start source).1.tokens, t.kind.expands = true → rank t.name ≤ R)
include hstart

/-- The sentence of another attempt has the same ranks as the one that failed. -/
theorem retry (h : Ranking rank R r s) (hp : r.pass s = .violated symbol s')
    (hattempts : (r.retry symbol s'.abandon).attempts ≤ r.settings.maxRecovery) :
    Ranking rank R r (r.retry symbol s'.abandon) ∧
      (r.retry symbol s'.abandon).left R r < s.left R r := by
  let u := s'.abandon.blame symbol
  obtain ⟨hprevious, hrecords, hiteration, hcount⟩ := Run.retry_of_violated hp
  have hkept : u.previous = s.previous := by
    rw [← hprevious]
    exact (r.retry_previous symbol s'.abandon).symm
  obtain ⟨hgrow, htoken⟩ := r.pass_token s
  rw [hp, PassResult.state, ← s'.blame_abandon_arena symbol] at hgrow htoken
  obtain ⟨hgrow', htoken'⟩ := r.derive_token u
  -- the sentence before is still there, and the current one is written as it was at first
  have hsentences : (r.derive u).1.Ranked rank R s.records.size (r.derive u).2.arena ∧
      ((s.previous = none ∧ s.records.size = 0) ∨ ∃ previous k, s.previous = some previous ∧
        s.records.size = k + 1 ∧ previous.Ranked rank R k (r.derive u).2.arena) := by
    rcases h.previous with ⟨hnone, hzero⟩ | ⟨previous, k, hsome, hsize, hranked⟩
    · have hread : r.derive u = r.readStart u := by
        unfold Run.derive
        rw [hkept, hnone]
      rw [hread, hzero]
      exact ⟨readStart hstart u, .inl ⟨hnone, rfl⟩⟩
    · have hranked' := hranked.congr hgrow htoken
      have hlowering : Lowering rank R k [] (r.derive u).1 (r.derive u).2.arena :=
        (Lowering.writeInvariant hrules hdescending).derive (hkept.trans hsome) (.start hranked')
      refine ⟨?_, .inr ⟨previous, k, hsome, hsize, hranked'.congr hgrow' htoken'⟩⟩
      rw [hsize]
      exact hlowering.written
  rw [← hprevious, ← hrecords] at hsentences
  refine ⟨⟨hsentences.1, hsentences.2, ?_, ?_, hattempts⟩, ?_⟩
  · rw [hrecords]
    exact h.records_le
  · rw [hrecords, hiteration]
    exact h.iteration_le
  · unfold RunState.left
    rw [hcount] at hattempts
    rw [hrecords, hcount]
    omega

/-- **With every step there are fewer passes left.** -/
theorem again (h : Ranking rank R r s) (hstep : r.step s = .again t) :
    Ranking rank R r t ∧ t.left R r < s.left R r := by
  have hattempts := Run.attempts_le_of_again hstep
  rcases Run.step_again hstep with ⟨next, s', hp, hnext, rfl⟩ | ⟨symbol, s', hp, rfl⟩
  · exact h.commit hrules hdescending hp hnext
  · exact h.retry hrules hdescending hstart hp hattempts

theorem of_reaches {w : W} {s₀ : ρ} (h : r.Reaches (r.begin w s₀) s) : Ranking rank R r s := by
  induction h with
  | refl => exact begin hstart w s₀
  | tail _ hstep ih => exact (ih.again hrules hdescending hstart hstep).1

end Ranking

variable [World W ρ]

/-- **A grammar without cycles comes to an end.**  If its rules are descending and the starting text
has ranks of at most `R`, then a run that may have `R + 2` iterations ends.  It gives up, or it
reports that nothing is left, after at most that many iterations.  This is so for every world, every
test and every source.  The failures of an iteration can be counted in 32 bits. -/
theorem Run.converges {r : Run α W} {rules : List (Rule α)} (hrules : r.rules = .ofList rules)
    {rank : String → Nat} {R : Nat} {source : ρ} (hdescending : Descending rank rules source)
    (hstart : ∀ t ∈ (parse r.start source).1.tokens, t.kind.expands = true → rank t.name ≤ R)
    (hbudget : ∀ limit, r.settings.budget = .bounded limit → R + 2 ≤ limit)
    (hrecovery : r.settings.maxRecovery < UInt32.size - 1) (w : W) (s₀ : ρ) :
    (∀ s, r.Reaches (r.begin w s₀) s → s.attempts + 1 < UInt32.size) ∧
    ∃ f, r.run? ((R + 2) * (r.settings.maxRecovery + 1)) w s₀ = some f ∧
      ((∃ failure, f.outcome = .error failure) ∨
        ∃ report, f.outcome = .ok report ∧ report.termination = .converged ∧
          report.iterations.length ≤ R + 2) := by
  refine ⟨fun s hs => ?_, ?_⟩
  · have hle := (Ranking.of_reaches hrules hdescending hstart hs).attempts_le
    omega
  have hbegin : Ranking rank R r (r.begin w s₀) := .begin hstart w s₀
  have hfuel : (r.begin w s₀).left R r < (R + 2) * (r.settings.maxRecovery + 1) := by
    show (R + 1 - 0) * _ + (_ - 0) < _
    rw [Nat.sub_zero, Nat.sub_zero, Nat.succ_mul (R + 1)]
    exact Nat.add_lt_add_left (Nat.lt_succ_self _) _
  obtain ⟨f, t, hf, ht, hstep⟩ :=
    exists_runFrom? (fun hs => hs.again hrules hdescending hstart) hbegin hfuel
  refine ⟨f, hf, ?_⟩
  -- no iteration is refused, as there were not more than `R + 1` of them
  have hallows : r.settings.budget.allows t.iteration = true := by
    rcases hb : r.settings.budget with limit | -
    · have hlimit := hbudget limit hb
      have hle := ht.iteration_le.trans ht.records_le
      exact decide_eq_true (by omega)
    · rfl
  rcases step_done hstep with ⟨hrefused, -⟩ | ⟨next, s', -, hp, -, rfl⟩ | ⟨symbol, s', -, -, rfl⟩
  · rw [hallows] at hrefused
    cases hrefused
  · obtain ⟨report, hreport, htermination, hiterations⟩ :=
      (s'.commit next).succeed_spec .converged
    refine .inr ⟨report, hreport, htermination, ?_⟩
    rw [hiterations, Array.length_toList, Ranking.size_records_commit hp]
    exact Nat.succ_le_succ ht.records_le
  · exact .inl ⟨_, rfl⟩

/-- A grammar of three rules that ends with a sentence of a method alone. -/
def Run.converging : Run Float32 Rehearsal where
  rules := .ofList [⟨" S ", [⟨1, "<o A><m Turn>"⟩]⟩, ⟨"A", [⟨1, "<o B>"⟩, ⟨2, "<o C>"⟩]⟩,
    ⟨"B", [⟨1, "<m Turn>"⟩]⟩]
  settings := ⟨.bounded 4, false, 3⟩
  start := "<r S>"
  violates := Rehearsal.violates

/-- A rehearsal that objects to one of the alternatives. -/
def Rehearsal.converging : Rehearsal := ⟨#[], false, [], [], ["C"], #[]⟩

/-- The ranks of its names. -/
def Run.height (name : String) : Nat := if name = "S" then 2 else if name = "A" then 1 else 0

/-- With ranks of at most two there are four iterations; the pass that failed is none of them. -/
theorem Run.converges_converging :
    Descending height converging.rules.rules Halves.half ∧
    (∀ t ∈ (parse converging.start Halves.half).1.tokens,
      t.kind.expands = true → height t.name ≤ 2) ∧
    ∃ (f : Finished Rehearsal Halves) (report : Report),
      converging.run? ((2 + 2) * (3 + 1)) .converging Halves.half = some f ∧
      f.outcome = .ok report ∧ report.termination = .converged ∧ report.recoveries = 1 ∧
      report.iterations.map IterationRecord.sentence =
        ["<r S>", "<o A><m Turn>", "<o B>", "<m Turn>"] := by
  have hdescending : Descending height converging.rules.rules Halves.half := by
    unfold Descending
    decide +kernel
  have hstart : ∀ t ∈ (parse converging.start Halves.half).1.tokens,
      t.kind.expands = true → height t.name ≤ 2 := by
    decide +kernel
  have hbudget : ∀ limit, converging.settings.budget = .bounded limit → 2 + 2 ≤ limit := by
    rintro _ ⟨⟩
    decide
  have hrecovery : converging.settings.maxRecovery < UInt32.size - 1 := by decide
  refine ⟨hdescending, hstart, ?_⟩
  obtain ⟨-, f, hf, hends⟩ :=
    converges rfl hdescending hstart hbudget hrecovery .converging Halves.half
  have hmap : (converging.run? ((2 + 2) * (3 + 1)) .converging Halves.half).map (fun f =>
      f.outcome.toOption.map fun report =>
        (report.recoveries, report.iterations.map IterationRecord.sentence)) =
      some (some (1, ["<r S>", "<o A><m Turn>", "<o B>", "<m Turn>"])) := by
    decide +kernel
  rw [show converging.run? ((2 + 2) * (3 + 1)) .converging Halves.half = some f from hf,
    Option.map_some] at hmap
  rcases hends with ⟨failure, hfailure⟩ | ⟨report, hreport, htermination, -⟩
  · rw [hfailure] at hmap
    cases hmap
  · rw [hreport] at hmap
    obtain ⟨hrecoveries, hsentences⟩ := Prod.mk.inj (Option.some.inj (Option.some.inj hmap))
    exact ⟨f, report, hf, hreport, htermination, hrecoveries, hsentences⟩

end SpatialGrammar
