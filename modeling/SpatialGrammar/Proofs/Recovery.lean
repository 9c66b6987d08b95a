/-
SpatialGrammar/Proofs/Recovery.lean

Why recovering from violations makes progress.

When a pass fails, the producer of the symbol by which it failed is blamed, with the
alternative it had chosen.  As long as the same producer is blamed, what it tried is
remembered and not tried again (`Run.Block.remembered`), so it runs out of
alternatives.  What is remembered of a producer was recorded in the iteration that
its sentence led to (`Run.recorded_of_reaches`), because a producer of another
iteration is another symbol.
-/
import Mathlib.Data.List.Chain
import Mathlib.Data.List.Induction
import SpatialGrammar.Decimal.Layout
import SpatialGrammar.Derivation.Rehearsal
import SpatialGrammar.Proofs.Lineage

namespace SpatialGrammar

variable {α W ρ : Type} [Scalar α] [Numeral α] [RandomSource ρ α] [World W ρ]

/-! ### Blame -/

/-- The producer that is to blame for the failure of the pass that begins in a state. -/
def Run.blamed? (r : Run α W) (s : RunState W ρ) : Option SymbolId :=
  match r.pass s with
  | .completed .. => none
  | .violated symbol s' => (s'.arena.get symbol).parent

/-- The alternative that it had chosen. -/
def Run.tried? (r : Run α W) (s : RunState W ρ) : Option Nat :=
  match r.pass s with
  | .completed .. => none
  | .violated symbol s' => (s'.arena.get symbol).parent.bind fun p => (s'.arena.get p).chosen

theorem Run.blamed?_violated {r : Run α W} {s s' : RunState W ρ} {symbol : SymbolId}
    (h : r.pass s = .violated symbol s') : r.blamed? s = (s'.arena.get symbol).parent := by
  simp [blamed?, h]

theorem Run.violated_of_blamed? {r : Run α W} {s : RunState W ρ} {p : SymbolId}
    (h : r.blamed? s = some p) : ∃ symbol s', r.pass s = .violated symbol s' := by
  unfold blamed? at h
  split at h
  · cases h
  · next symbol s' hp => exact ⟨symbol, s', hp⟩

namespace Layered

variable {r : Run α W} {lo : Nat} {s t : RunState W ρ} {p : SymbolId}

/-- A pass does not change whom the symbols it reads come from, so who is blamed is known before. -/
theorem blamed?_eq {symbol : SymbolId} {s' : RunState W ρ} (h : Layered r lo s)
    (hp : r.pass s = .violated symbol s') : r.blamed? s = (s.arena.get symbol).parent := by
  have hf := h.failed hp
  rw [Run.blamed?_violated hp, hf.parent_eq symbol hf.symbol_mem]

/-- The blamed producer is one of the sentence before, and the alternative is the one by which the
current sentence was written: the pass has not changed it. -/
theorem blamed (h : Layered r lo s) (hb : r.blamed? s = some p) :
    ∃ previous, s.previous = some previous ∧ Produced r lo previous s ∧
      p ∈ previous.symbols.toList ∧ (s.arena.get p).kind.expands = true ∧
      r.tried? s = (s.arena.get p).chosen ∧ ∃ i, r.tried? s = some i := by
  obtain ⟨symbol, s', hp⟩ := Run.violated_of_blamed? hb
  have hf := h.failed hp
  have hparent : (s.arena.get symbol).parent = some p := by
    rw [← h.blamed?_eq hp, hb]
  rcases h.produced with ⟨-, -, hnone⟩ | ⟨previous, hsome, hprod⟩
  · rw [hnone symbol hf.symbol_mem] at hparent
    cases hparent
  · obtain ⟨q, hq, hqp, hk, hchosen⟩ := hprod.parent symbol hf.symbol_mem
    rw [hparent] at hqp
    cases hqp
    have htried : r.tried? s = (s.arena.get p).chosen := by
      simp only [Run.tried?, hp]
      rw [hf.parent_eq symbol hf.symbol_mem, hparent, Option.bind_some,
        hf.get_eq p (hprod.lt p hq)]
    obtain ⟨i, hi⟩ := Option.ne_none_iff_exists'.mp hchosen
    exact ⟨previous, hsome, hprod, hq, hk, htried, i, htried.trans hi⟩

/-- A step after a failed pass stays with the sentence before and its symbols, and counts. -/
theorem retried {symbol : SymbolId} {s' : RunState W ρ} (h : Layered r lo s)
    (hp : r.pass s = .violated symbol s') :
    (r.retry symbol s'.abandon).previous = s.previous ∧
      (r.retry symbol s'.abandon).records = s.records ∧
      (r.retry symbol s'.abandon).attempts = s.attempts + 1 ∧
      ∀ q < lo, ((r.retry symbol s'.abandon).arena.get q).toToken = (s.arena.get q).toToken := by
  have hf := h.failed hp
  obtain ⟨hprevious, hrecords, -, hattempts⟩ := Run.retry_of_violated hp
  refine ⟨hprevious, hrecords, hattempts, ?_⟩
  intro q hq
  obtain ⟨-, htoken⟩ := r.derive_token (s'.abandon.blame symbol)
  rw [RunState.blame_abandon_arena] at htoken
  have hlt : q < s'.arena.size :=
    Nat.lt_of_lt_of_le hq (Nat.le_trans h.lo_le hf.size_le)
  exact (htoken q hlt).trans (congrArg Symbol.toToken (hf.get_eq q hq))

/-- What is blamed is what the next attempt is written without. -/
theorem exclusions_of_blamed {symbol : SymbolId} {s' : RunState W ρ}
    (hp : r.pass s = .violated symbol s') (hb : r.blamed? s = some p) :
    (s'.abandon.blame symbol).exclusions = s.exclusions.record p (r.tried? s) := by
  obtain ⟨_, _, _, ha⟩ := s'.abandon_frame
  have harena : s'.abandon.arena = s'.arena := by rw [ha]
  have hexclusions : s'.abandon.exclusions = s.exclusions := by
    rw [ha]
    simpa [hp] using r.pass_exclusions s
  have hparent : (s'.arena.get symbol).parent = some p := by
    rw [← Run.blamed?_violated hp, hb]
  have htried : r.tried? s = (s'.arena.get p).chosen := by
    simp only [Run.tried?, hp]
    rw [hparent, Option.bind_some]
  rcases s'.abandon.blame_cases symbol with ⟨hnone, -⟩ | ⟨q, hq, hbl⟩
  · rw [harena, hparent] at hnone
    cases hnone
  · rw [harena, hparent] at hq
    cases hq
    rw [hbl]
    show s'.abandon.exclusions.record p (s'.abandon.arena.get p).chosen = _
    rw [hexclusions, harena, htried]

/-- The step after a pass for whose failure `p` is blamed. -/
theorem again_of_blamed (h : Layered r lo s) (hb : r.blamed? s = some p)
    (hstep : r.step s = .again t) :
    t.previous = s.previous ∧ t.exclusions = s.exclusions.record p (r.tried? s) ∧
      ∀ q < lo, (t.arena.get q).toToken = (s.arena.get q).toToken := by
  obtain ⟨symbol, s', hp⟩ := Run.violated_of_blamed? hb
  rcases Run.step_again hstep with ⟨_, _, hc, -, -⟩ | ⟨_, _, hv, rfl⟩
  · rw [hp] at hc
    cases hc
  · rw [hp] at hv
    cases hv
    obtain ⟨hprevious, -, -, htoken⟩ := h.retried hp
    exact ⟨hprevious, by rw [r.retry_exclusions, exclusions_of_blamed hp hb], htoken⟩

end Layered

/-! ### Blocks of failures -/

/-- Consecutive passes of a run that fail and for which the same producer is blamed, given by the
states in which they begin. -/
structure Run.Block (r : Run α W) (s₀ : RunState W ρ) (p : SymbolId)
    (block : List (RunState W ρ)) : Prop where
  reached : ∀ s ∈ block, r.Reaches s₀ s
  consecutive : block.IsChain fun s t => r.step s = .again t
  blamed : ∀ s ∈ block, r.blamed? s = some p

namespace Run.Block

variable {r : Run α W} {w : W} {source : ρ} {p : SymbolId} {block : List (RunState W ρ)}

/-- The passes at the beginning of a block. -/
theorem left {s₀ : RunState W ρ} {after : List (RunState W ρ)}
    (h : r.Block s₀ p (block ++ after)) : r.Block s₀ p block where
  reached := fun s hs => h.reached s (List.mem_append_left _ hs)
  consecutive := (List.isChain_append.mp h.consecutive).1
  blamed := fun s hs => h.blamed s (List.mem_append_left _ hs)

/-- **What a producer tried in a block is remembered** when the sentence is written for the attempt
after it. -/
theorem remembered (h : r.Block (r.begin w source) p block) {s t : RunState W ρ}
    (hs : s ∈ block.getLast?) (ht : r.step s = .again t) :
    t.exclusions.parent = some p ∧ ∀ u ∈ block,
      (∀ i, r.tried? u = some i → i ∈ t.exclusions.indices) ∧
        (t.arena.get p).toToken = (u.arena.get p).toToken := by
  induction block using List.reverseRecOn generalizing s t with
  | nil => cases hs
  | append_singleton before last ih =>
    obtain rfl : last = s := by simpa using hs
    have hmem : last ∈ before ++ [last] := List.mem_append_right _ List.mem_cons_self
    obtain ⟨lo, hl⟩ := Layered.of_reaches (h.reached last hmem)
    have hb := h.blamed last hmem
    obtain ⟨-, hexclusions, htoken⟩ := hl.again_of_blamed hb ht
    obtain ⟨previous, -, hprod, hp, -⟩ := hl.blamed hb
    have hlt := hprod.lt p hp
    refine ⟨by rw [hexclusions]; exact ExclusionSet.parent_record .., ?_⟩
    intro u hu
    rcases List.mem_append.mp hu with hu | hu
    · -- an earlier pass: it is remembered in `last`, and `last` does not start over
      obtain ⟨v, hv⟩ : ∃ v, v ∈ before.getLast? :=
        ⟨_, List.getLast?_eq_some_getLast (List.ne_nil_of_mem hu)⟩
      have hstep : r.step v = .again last :=
        (List.isChain_append.mp h.consecutive).2.2 v hv last (by simp)
      obtain ⟨hparent, hall⟩ := ih h.left hv hstep
      obtain ⟨htried, hsame⟩ := hall u hu
      refine ⟨?_, (htoken p hlt).trans hsame⟩
      intro i hi
      rw [hexclusions]
      exact ExclusionSet.mem_record_of_mem hparent _ (htried i hi)
    · obtain rfl := List.mem_singleton.mp hu
      refine ⟨?_, htoken p hlt⟩
      intro i hi
      rw [hexclusions, hi]
      exact ExclusionSet.mem_record_self ..

/-- What was tried before the last pass of a block is remembered in it. -/
theorem remembered_last {before : List (RunState W ρ)} {s : RunState W ρ}
    (h : r.Block (r.begin w source) p (before ++ [s])) {u : RunState W ρ} (hu : u ∈ before) :
    s.exclusions.parent = some p ∧ (∀ i, r.tried? u = some i → i ∈ s.exclusions.indices) ∧
      (s.arena.get p).toToken = (u.arena.get p).toToken := by
  obtain ⟨v, hv⟩ : ∃ v, v ∈ before.getLast? :=
    ⟨_, List.getLast?_eq_some_getLast (List.ne_nil_of_mem hu)⟩
  have hstep : r.step v = .again s :=
    (List.isChain_append.mp h.consecutive).2.2 v hv s (by simp)
  obtain ⟨hparent, hall⟩ := h.left.remembered hv hstep
  exact ⟨hparent, hall u hu⟩

/-- **In a block no alternative is tried twice.** -/
theorem distinct (h : r.Block (r.begin w source) p block) :
    ∃ tried : List Nat, block.map r.tried? = tried.map some ∧ tried.Nodup := by
  induction block using List.reverseRecOn with
  | nil => exact ⟨[], rfl, List.nodup_nil⟩
  | append_singleton before s ih =>
    -- what the last pass tried avoids its exclusions, and these hold all that was tried before
    obtain ⟨tried, hmap, hnodup⟩ := ih h.left
    have hmem : s ∈ before ++ [s] := List.mem_append_right _ List.mem_cons_self
    obtain ⟨lo, hl⟩ := Layered.of_reaches (h.reached s hmem)
    obtain ⟨previous, -, hprod, hp, hk, htried, i, hi⟩ := hl.blamed (h.blamed s hmem)
    refine ⟨tried ++ [i], by simp [hmap, hi], ?_⟩
    refine List.nodup_append.mpr ⟨hnodup, by simp, ?_⟩
    rintro j hj _ hi' rfl
    obtain rfl := List.mem_singleton.mp hi'
    have hj : some j ∈ before.map r.tried? := by
      rw [hmap]
      exact List.mem_map_of_mem hj
    obtain ⟨u, hu, huj⟩ := List.mem_map.mp hj
    obtain ⟨hparent, hremembered, -⟩ := h.remembered_last hu
    exact hprod.avoided p hp hk hparent j (htried ▸ hi) (hremembered j huj)

/-- What comes out of a re-derivation in a block was not tried in it before. -/
theorem untried {before after : List (RunState W ρ)} {s t : RunState W ρ}
    (h : r.Block (r.begin w source) p (before ++ s :: after)) (ht : r.step s = .again t) {i : Nat}
    (hi : (t.arena.get p).chosen = some i) : ∀ u ∈ before ++ [s], r.tried? u ≠ some i := by
  intro u hu hui
  have hb : r.Block (r.begin w source) p (before ++ [s]) := by
    rw [List.append_cons] at h
    exact h.left
  have hmem : s ∈ before ++ [s] := List.mem_append_right _ List.mem_cons_self
  obtain ⟨hparent, hall⟩ := hb.remembered (s := s) (by simp) ht
  obtain ⟨lo, hs⟩ := Layered.of_reaches (hb.reached s hmem)
  obtain ⟨previous, hsome, -, hp, hk, -⟩ := hs.blamed (hb.blamed s hmem)
  obtain ⟨hprevious, -, htoken⟩ := hs.again_of_blamed (hb.blamed s hmem) ht
  obtain ⟨lo', hl⟩ := Layered.of_reaches ((hb.reached s hmem).tail ht)
  rcases hl.produced with ⟨hnone, -⟩ | ⟨previous', hsome', hprod⟩
  · rw [hprevious, hsome] at hnone
    cases hnone
  · rw [hprevious, hsome] at hsome'
    cases hsome'
    have hk' : (t.arena.get p).kind.expands = true := by
      rw [show (t.arena.get p).kind = (s.arena.get p).kind from
        congrArg Token.kind (hall s hmem).2]
      exact hk
    exact hprod.avoided p hp hk' hparent i hi ((hall u hu).1 i hui)

/-- The symbol is the same in the whole block. -/
theorem name_eq (h : r.Block (r.begin w source) p block) {s u : RunState W ρ} (hs : s ∈ block)
    (hu : u ∈ block) : (s.arena.get p).name = (u.arena.get p).name := by
  rcases List.eq_nil_or_concat' block with rfl | ⟨before, last, rfl⟩
  · cases hs
  · have hlast (v : RunState W ρ) (hv : v ∈ before ++ [last]) :
        (v.arena.get p).name = (last.arena.get p).name := by
      rcases List.mem_append.mp hv with hv | hv
      · exact (congrArg Token.name (h.remembered_last hv).2.2).symm
      · rw [List.mem_singleton.mp hv]
    rw [hlast s hs, hlast u hu]

end Run.Block

/-! ### Where exclusions come from -/

/-- The alternative `i` of `p` was recorded when a pass failed that began in a state before `s` or
in `s`, in the same iteration: no record has been entered since. -/
def Run.RecordedIn (r : Run α W) (s₀ : RunState W ρ) (p : SymbolId) (i : Nat)
    (s : RunState W ρ) : Prop :=
  ∃ v, r.Reaches s₀ v ∧ r.Reaches v s ∧ v.records.size = s.records.size ∧
    r.blamed? v = some p ∧ r.tried? v = some i

/-- The exclusions of a producer of the current sentence were recorded in this iteration. -/
theorem Run.recorded_of_reaches {r : Run α W} {w : W} {source : ρ} {s : RunState W ρ}
    (h : r.Reaches (r.begin w source) s) {previous : Sentence} (hsome : s.previous = some previous)
    {p : SymbolId} (hp : p ∈ previous.symbols.toList) (hparent : s.exclusions.parent = some p) :
    ∀ i ∈ s.exclusions.indices, r.RecordedIn (r.begin w source) p i s := by
  induction h generalizing previous p with
  | refl =>
    have hnone : (r.begin w source).previous = none := rfl
    rw [hnone] at hsome
    cases hsome
  | @tail s t hr hstep ih =>
    obtain ⟨lo, hl⟩ := Layered.of_reaches hr
    rcases Run.step_again hstep with ⟨next, s', hpass, -, rfl⟩ | ⟨symbol, s', hpass, rfl⟩
    · -- the producers of a new iteration are younger than what is remembered
      have hcurrent : s'.current = s.current := by simpa [hpass] using r.pass_current s
      have hexclusions : s'.exclusions = s.exclusions := by simpa [hpass] using r.pass_exclusions s
      have hsome : some s'.current = some previous := hsome
      rw [hcurrent] at hsome
      cases hsome
      have hparent : s'.exclusions.parent = some p := hparent
      rw [hexclusions] at hparent
      exact absurd (hl.blamed_lt p hparent) (Nat.not_lt.mpr (hl.mem p hp).1)
    · obtain ⟨hprevious, hrecords, -, -⟩ := hl.retried hpass
      rw [hprevious] at hsome
      rw [r.retry_exclusions] at hparent ⊢
      intro i hi
      rcases hl.produced with ⟨hnone, -⟩ | ⟨previous', hsome', hprod⟩
      · rw [hnone] at hsome
        cases hsome
      obtain ⟨q, hq, hqp, -⟩ := hprod.parent symbol (hl.failed hpass).symbol_mem
      have hblamed : r.blamed? s = some q := by
        rw [hl.blamed?_eq hpass, hqp]
      rw [Layered.exclusions_of_blamed hpass hblamed] at hparent hi
      rw [ExclusionSet.parent_record] at hparent
      cases hparent
      rcases ExclusionSet.mem_record_cases hi with htried | ⟨hsame, hold⟩
      · exact ⟨s, hr, .single hstep, by rw [hrecords], hblamed, htried⟩
      · obtain ⟨v, hv, hvs, hsize, hvb, hvt⟩ := ih hsome hp hsame i hold
        exact ⟨v, hv, hvs.tail hstep, by rw [hrecords, hsize], hvb, hvt⟩

/-- What a symbol may not be given when the sentence is written anew was recorded in this
iteration. -/
theorem Run.recorded_of_excluded {r : Run α W} {w : W} {source : ρ} {s s' : RunState W ρ}
    {symbol : SymbolId} (hr : r.Reaches (r.begin w source) s)
    (hpass : r.pass s = .violated symbol s') {id : SymbolId} {i : Nat}
    (hi : i ∈ r.excludedFor (s'.abandon.blame symbol).exclusions id) :
    ∃ p, (s'.abandon.blame symbol).exclusions.parent = some p ∧
      r.RecordedIn (r.begin w source) p i s := by
  obtain ⟨lo, hl⟩ := Layered.of_reaches hr
  have hi : i ∈ (s'.abandon.blame symbol).exclusions.indices := by
    unfold Run.excludedFor at hi
    split at hi
    · exact hi
    · cases hi
  rcases hl.produced with ⟨-, hempty, hnone⟩ | ⟨previous, hsome, hprod⟩
  · -- nothing is excluded in the first iteration
    obtain ⟨_, _, _, ha⟩ := s'.abandon_frame
    have hparent : (s'.abandon.arena.get symbol).parent = none := by
      rw [ha]
      exact ((hl.failed hpass).parent_eq symbol (hl.failed hpass).symbol_mem).trans
        (hnone symbol (hl.failed hpass).symbol_mem)
    have hexclusions : s'.abandon.exclusions = .empty := by
      rw [ha, ← hempty]
      simpa [hpass] using r.pass_exclusions s
    rcases s'.abandon.blame_cases symbol with ⟨-, hb⟩ | ⟨_, hp, -⟩
    · rw [hb, hexclusions] at hi
      cases hi
    · rw [hparent] at hp
      cases hp
  · obtain ⟨p, hp, hparent, -⟩ := hprod.parent symbol (hl.failed hpass).symbol_mem
    have hblamed : r.blamed? s = some p := by
      rw [hl.blamed?_eq hpass, hparent]
    rw [Layered.exclusions_of_blamed hpass hblamed] at hi ⊢
    refine ⟨p, ExclusionSet.parent_record .., ?_⟩
    rcases ExclusionSet.mem_record_cases hi with htried | ⟨hsame, hold⟩
    · exact ⟨s, hr, .refl, rfl, hblamed, htried⟩
    · exact Run.recorded_of_reaches hr hsome hp hsame i hold

/-! ### Iterations with one producer -/

/-- The passes of the iteration of `s` that failed before, given by the states in which they
began. -/
structure Run.Failures (r : Run α W) (s₀ : RunState W ρ) (block : List (RunState W ρ))
    (s : RunState W ρ) : Prop where
  reached : ∀ u ∈ block, r.Reaches s₀ u
  consecutive : (block ++ [s]).IsChain fun u t => r.step u = .again t
  failed : ∀ u ∈ block, ∃ symbol s', r.pass u = .violated symbol s'
  previous : ∀ u ∈ block, u.previous = s.previous
  token : ∀ u ∈ block, ∀ previous, s.previous = some previous →
    ∀ q ∈ previous.symbols.toList, (u.arena.get q).toToken = (s.arena.get q).toToken

/-- There are as many of them as the run has counted. -/
theorem Run.failures_of_reaches {r : Run α W} {w : W} {source : ρ} {s : RunState W ρ}
    (h : r.Reaches (r.begin w source) s) :
    ∃ block, block.length = s.attempts ∧ r.Failures (r.begin w source) block s := by
  induction h with
  | refl => exact ⟨[], rfl, by simp, by simp, by simp, by simp, by simp⟩
  | @tail s t hr hstep ih =>
    rcases Run.step_again hstep with ⟨next, s', hpass, -, rfl⟩ | ⟨symbol, s', hpass, rfl⟩
    · exact ⟨[], rfl, by simp, by simp, by simp, by simp, by simp⟩
    · obtain ⟨block, hlength, hf⟩ := ih
      obtain ⟨lo, hl⟩ := Layered.of_reaches hr
      obtain ⟨hprevious, -, hattempts, htoken⟩ := hl.retried hpass
      refine ⟨block ++ [s], by simp [hlength, hattempts], ?_, ?_, ?_, ?_, ?_⟩
      · -- reached
        intro u hu
        rcases List.mem_append.mp hu with hu | hu
        · exact hf.reached u hu
        · rw [List.mem_singleton.mp hu]
          exact hr
      · -- consecutive
        refine List.isChain_append.mpr ⟨hf.consecutive, by simp, ?_⟩
        intro u hu v hv
        obtain rfl : s = u := by simpa using hu
        obtain rfl : _ = v := by simpa using hv
        exact hstep
      · -- failed
        intro u hu
        rcases List.mem_append.mp hu with hu | hu
        · exact hf.failed u hu
        · rw [List.mem_singleton.mp hu]
          exact ⟨symbol, s', hpass⟩
      · -- previous
        intro u hu
        rw [hprevious]
        rcases List.mem_append.mp hu with hu | hu
        · exact hf.previous u hu
        · rw [List.mem_singleton.mp hu]
      · -- token: the producers are older than the current sentence
        intro u hu previous hsome q hq
        rw [hprevious] at hsome
        have hlt : q < lo := by
          rcases hl.produced with ⟨hnone, -⟩ | ⟨previous', hsome', hprod⟩
          · rw [hnone] at hsome
            cases hsome
          · rw [hsome] at hsome'
            cases hsome'
            exact hprod.lt q hq
        rcases List.mem_append.mp hu with hu | hu
        · rw [hf.token u hu previous hsome q hq]
          exact (htoken q hlt).symm
        · rw [List.mem_singleton.mp hu]
          exact (htoken q hlt).symm

/-- Where the sentence before has only one symbol with a rule, that symbol is blamed. -/
theorem Layered.blamed_single {r : Run α W} {lo : Nat} {s s' : RunState W ρ} {symbol : SymbolId}
    (h : Layered r lo s) (hpass : r.pass s = .violated symbol s') {previous : Sentence}
    (hsome : s.previous = some previous) {p : SymbolId}
    (single : ∀ q ∈ previous.symbols.toList, q ≠ p → (s.arena.get q).kind.expands = true →
      r.rules.rule? (s.arena.get q).name = none) : r.blamed? s = some p := by
  rcases h.produced with ⟨hnone, -⟩ | ⟨previous', hsome', hprod⟩
  · rw [hnone] at hsome
    cases hsome
  rw [hsome] at hsome'
  cases hsome'
  have hf := h.failed hpass
  obtain ⟨q, hq, hqp, hk, hchosen⟩ := hprod.parent symbol hf.symbol_mem
  obtain ⟨i, hi⟩ := Option.ne_none_iff_exists'.mp hchosen
  obtain ⟨excluded, hdraws⟩ := hprod.drawn q hq hk i hi
  obtain ⟨rule, hrule, -⟩ := hdraws.select
  have hqp' : q = p := by
    by_contra hne
    rw [single q hq hne hk] at hrule
    cases hrule
  rw [h.blamed?_eq hpass, hqp, hqp']

/-- Where the sentence before has only one symbol with a rule, the passes of the iteration that
failed form a block of that symbol, with the present one if that fails too. -/
theorem Run.Failures.block {r : Run α W} {w : W} {source : ρ} {s s' : RunState W ρ}
    {symbol : SymbolId} {block : List (RunState W ρ)} (hf : r.Failures (r.begin w source) block s)
    (hr : r.Reaches (r.begin w source) s) (hpass : r.pass s = .violated symbol s')
    {previous : Sentence} (hsome : s.previous = some previous) {p : SymbolId}
    (hsingle : ∀ q ∈ previous.symbols.toList, q ≠ p → (s.arena.get q).kind.expands = true →
      r.rules.rule? (s.arena.get q).name = none) :
    r.Block (r.begin w source) p (block ++ [s]) := by
  refine ⟨?_, hf.consecutive, ?_⟩
  · intro u hu
    rcases List.mem_append.mp hu with hu | hu
    · exact hf.reached u hu
    · rw [List.mem_singleton.mp hu]
      exact hr
  · intro u hu
    rcases List.mem_append.mp hu with hu | hu
    · obtain ⟨_, _, hpass'⟩ := hf.failed u hu
      obtain ⟨_, hl⟩ := Layered.of_reaches (hf.reached u hu)
      refine hl.blamed_single hpass' ((hf.previous u hu).trans hsome) ?_
      intro q hq hne hk
      have htoken := hf.token u hu previous hsome q hq
      have hname : (u.arena.get q).name = (s.arena.get q).name := congrArg Token.name htoken
      have hkind : (u.arena.get q).kind = (s.arena.get q).kind := congrArg Token.kind htoken
      rw [hname]
      exact hsingle q hq hne (hkind ▸ hk)
    · rw [List.mem_singleton.mp hu]
      obtain ⟨_, hl⟩ := Layered.of_reaches hr
      exact hl.blamed_single hpass hsome hsingle

/-! ### Progress -/

/-- What is tried in a block has a positive probability. -/
theorem Run.Block.positiveAt {ρ : Type} [RandomSource ρ Float32] [World W ρ]
    (hρ : RandomSource.InUnit ρ) {r : Run Float32 W} {w : W} {source : ρ} {p : SymbolId}
    {block : List (RunState W ρ)} (h : r.Block (r.begin w source) p block) {s u : RunState W ρ}
    (hs : s ∈ block) (hu : u ∈ block) {i : Nat} (hi : r.tried? u = some i) :
    r.rules.PositiveAt (s.arena.get p).name i := by
  obtain ⟨lo, hl⟩ := Layered.of_reaches (h.reached u hu)
  obtain ⟨previous, -, hprod, hp, hk, htried, -⟩ := hl.blamed (h.blamed u hu)
  obtain ⟨excluded, hdraws⟩ := hprod.drawn p hp hk i (htried ▸ hi)
  rw [h.name_eq hs hu]
  exact hdraws.positiveAt hρ

/-- A block has no more passes than its producer has alternatives of positive probability. -/
theorem Run.Block.length_le {ρ : Type} [RandomSource ρ Float32] [World W ρ]
    (hρ : RandomSource.InUnit ρ) {r : Run Float32 W} {w : W} {source : ρ} {p : SymbolId}
    {block : List (RunState W ρ)} (h : r.Block (r.begin w source) p block) {s : RunState W ρ}
    (hs : s ∈ block) : block.length ≤ r.rules.positives (s.arena.get p).name := by
  obtain ⟨tried, hmap, hnodup⟩ := h.distinct
  have hlength : block.length = tried.length := by
    simpa using congrArg List.length hmap
  rw [hlength]
  -- the alternatives that were tried are different, and each of them has been drawn
  refine RuleTable.length_le_positives hnodup fun i hi => ?_
  have hmem : some i ∈ block.map r.tried? := by
    rw [hmap]
    exact List.mem_map_of_mem hi
  obtain ⟨u, hu, hui⟩ := List.mem_map.mp hmem
  exact h.positiveAt hρ hs hu hui

/-- **Recovery makes progress, and exclusions do not leak.**  The source gives numbers of the unit
interval.

While the same producer is blamed for the failures of consecutive passes, it has tried a different
alternative at each of them; what a re-derivation gives it was not tried before in the block; so
there are at most as many failures as it has alternatives of positive probability.

Each position that is excluded when a sentence is written anew was recorded in the same iteration.

If the sentence before has one symbol with a rule only, then the passes of the
iteration that failed, the present one included, are at most as many as that has
alternatives of positive probability. -/
theorem Run.recovery {ρ : Type} [RandomSource ρ Float32] [World W ρ]
    (hρ : RandomSource.InUnit ρ) (r : Run Float32 W) (w : W) (source : ρ) :
    (∀ p block, r.Block (r.begin w source) p block →
      (∃ tried : List Nat, block.map r.tried? = tried.map some ∧ tried.Nodup) ∧
      (∀ before s after t, block = before ++ s :: after → r.step s = .again t →
        ∀ i, (t.arena.get p).chosen = some i → ∀ u ∈ before ++ [s], r.tried? u ≠ some i) ∧
      ∀ s ∈ block, block.length ≤ r.rules.positives (s.arena.get p).name) ∧
    (∀ s symbol s', r.Reaches (r.begin w source) s → r.pass s = .violated symbol s' →
      ∀ id, ∀ i ∈ r.excludedFor (s'.abandon.blame symbol).exclusions id,
        ∃ p, (s'.abandon.blame symbol).exclusions.parent = some p ∧
          r.RecordedIn (r.begin w source) p i s) ∧
    (∀ s symbol s' previous p, r.Reaches (r.begin w source) s → r.pass s = .violated symbol s' →
      s.previous = some previous →
      (∀ q ∈ previous.symbols.toList, q ≠ p → (s.arena.get q).kind.expands = true →
        r.rules.rule? (s.arena.get q).name = none) →
      s.attempts + 1 ≤ r.rules.positives (s.arena.get p).name) := by
  refine ⟨?_, ?_, ?_⟩
  · -- while one producer is blamed
    intro p block h
    refine ⟨h.distinct, ?_, fun s hs => h.length_le hρ hs⟩
    rintro before s after t rfl ht i hi
    exact h.untried ht hi
  · -- where exclusions come from
    exact fun _ _ _ hr hpass _ _ hi => recorded_of_excluded hr hpass hi
  · -- with one producer, the passes that failed form a block
    intro s symbol s' previous p hr hpass hsome hsingle
    obtain ⟨block, hlength, hf⟩ := Run.failures_of_reaches hr
    have hb := hf.block hr hpass hsome hsingle
    have hle := hb.length_le hρ (List.mem_append_right block List.mem_cons_self)
    simpa [hlength] using hle

/-- A run whose only producer has two alternatives of positive probability and tries both. -/
def Run.exhausting : Run Float32 Rehearsal where
  rules := .ofList [⟨"A", [⟨1, "<o B>"⟩, ⟨2, "<o C>"⟩, ⟨0, "<o D>"⟩]⟩]
  settings := ⟨.bounded 2, false, 5⟩
  start := "<o A>"
  violates := Rehearsal.violates

/-- A rehearsal that objects to what comes of them. -/
def Rehearsal.exhausting : Rehearsal := ⟨#[], false, [], [], ["B", "C"], #[]⟩

/-- The two passes of the second iteration that fail form a block, and more there cannot be. -/
theorem Run.recovery_exhausting :
    RandomSource.InUnit Halves ∧
      ∃ block : List (RunState Rehearsal Halves), block.length = 2 ∧
        exhausting.Block (exhausting.begin .exhausting Halves.half) 0 block ∧
        block.map exhausting.tried? = [some 1, some 0] ∧
        (∃ tried : List Nat, block.map exhausting.tried? = tried.map some ∧ tried.Nodup) ∧
        ∀ s ∈ block, block.length ≤ exhausting.rules.positives (s.arena.get 0).name := by
  have hρ : RandomSource.InUnit Halves := by
    rintro ⟨⟩
    decide +kernel
  let s₀ : RunState Rehearsal Halves := exhausting.begin .exhausting Halves.half
  let s₁ := exhausting.next s₀
  let s₂ := exhausting.next s₁
  have h₀ : exhausting.step s₀ = .again s₁ := step_eq_next (by decide +kernel)
  have h₁ : exhausting.step s₁ = .again s₂ := step_eq_next (by decide +kernel)
  have hr₁ : exhausting.Reaches s₀ s₁ := .single h₀
  have hblock : exhausting.Block s₀ 0 [s₁, s₂] := by
    have hb₁ : exhausting.blamed? s₁ = some 0 := by decide +kernel
    have hb₂ : exhausting.blamed? s₂ = some 0 := by decide +kernel
    refine ⟨?_, .cons_cons h₁ (.singleton s₂), ?_⟩
    · intro s hs
      rcases List.mem_pair.mp hs with h | h <;> rw [h]
      · exact hr₁
      · exact hr₁.tail h₁
    · intro s hs
      rcases List.mem_pair.mp hs with h | h <;> rw [h]
      · exact hb₁
      · exact hb₂
  have htried : [s₁, s₂].map exhausting.tried? = [some 1, some 0] := by decide +kernel
  obtain ⟨hdistinct, -, hlength⟩ := (recovery hρ exhausting .exhausting Halves.half).1 0 _ hblock
  exact ⟨hρ, [s₁, s₂], rfl, hblock, htried, hdistinct, hlength⟩

end SpatialGrammar
