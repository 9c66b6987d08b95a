/-
SpatialGrammar/Proofs/Lineage.lean

The generations of symbols in a run.

When a pass is about to begin, the symbols of the current sentence are younger than a
certain handle and those of the sentence before it are older (`Layered`).  The pass
gives choices and entities to the young ones only, so an old producer still has the
choice by which the current sentence was written, and no producer of one generation
is ever one of another.  The exclusions speak of an old symbol; if it is one of the
sentence before, then its choice is not among them.
-/
import SpatialGrammar.Proofs.RunRule
import SpatialGrammar.Proofs.Writing

namespace SpatialGrammar

variable {α W ρ : Type} [Scalar α] [Numeral α] [RandomSource ρ α]

/-! ### What writing keeps -/

/-- Every producer is older than what it produced. -/
def Arena.Older (a : Arena) : Prop := ∀ ⦃id p⦄, (a.get id).parent = some p → p < id

/-- The symbols from `lo` on have no entity. -/
def Arena.Unmade (a : Arena) (lo : Nat) : Prop := ∀ ⦃id : Nat⦄, lo ≤ id → (a.get id).entity = none

namespace Writing

variable {t : RuleTable α} {a b : Arena} {ids done : List SymbolId}
  {excluded : SymbolId → List Nat} {next : Sentence}

omit [Numeral α] in
theorem older (h : Writing ρ t a ids excluded done next b) (ha : a.Older) : b.Older := by
  intro id p hp
  by_cases hid : id < a.size
  · rw [h.parent id hid] at hp
    exact ha hp
  · by_cases hb : id < b.size
    · obtain ⟨-, q, hq, hparent, -⟩ := h.fresh id (Nat.le_of_not_lt hid) hb
      rw [hp] at hparent
      cases hparent
      exact Nat.lt_of_lt_of_le (h.read p hq).2 (Nat.le_of_not_lt hid)
    · rw [Arena.get_of_size_le (Nat.le_of_not_lt hb)] at hp
      cases hp

omit [Numeral α] in
theorem unmade (h : Writing ρ t a ids excluded done next b) : b.Unmade a.size := by
  intro id hid
  by_cases hb : id < b.size
  · exact (h.fresh id hid hb).1
  · rw [Arena.get_of_size_le (Nat.le_of_not_lt hb)]
    rfl

end Writing

/-! ### What is remembered of a failure -/

namespace ExclusionSet

omit [Scalar α] [Numeral α] [RandomSource ρ α] in
theorem parent_record (e : ExclusionSet) (p : SymbolId) (index : Option Nat) :
    (e.record p index).parent = some p := by
  have habout : (e.about p).parent = some p := by
    unfold about
    split
    · assumption
    · rfl
  unfold record
  rcases index with - | i
  · exact habout
  · dsimp only
    split
    · exact habout
    · exact habout

omit [Scalar α] [Numeral α] [RandomSource ρ α] in
/-- The failure is remembered. -/
theorem mem_record_self (e : ExclusionSet) (p : SymbolId) (i : Nat) :
    i ∈ (e.record p (some i)).indices := by
  unfold record
  dsimp only
  split
  · assumption
  · simp

omit [Scalar α] [Numeral α] [RandomSource ρ α] in
/-- Earlier failures of the same symbol are not forgotten. -/
theorem mem_record_of_mem {e : ExclusionSet} {p : SymbolId} (hp : e.parent = some p)
    (index : Option Nat) {j : Nat} (hj : j ∈ e.indices) : j ∈ (e.record p index).indices := by
  have habout : e.about p = e := if_pos hp
  unfold record
  rw [habout]
  rcases index with - | i
  · exact hj
  · dsimp only
    split
    · exact hj
    · exact List.mem_append_left _ hj

omit [Scalar α] [Numeral α] [RandomSource ρ α] in
/-- Nothing else is remembered. -/
theorem mem_record_cases {e : ExclusionSet} {p : SymbolId} {index : Option Nat} {j : Nat}
    (h : j ∈ (e.record p index).indices) : index = some j ∨ e.parent = some p ∧ j ∈ e.indices := by
  have habout (hj : j ∈ (e.about p).indices) : e.parent = some p ∧ j ∈ e.indices := by
    unfold about at hj
    split at hj
    · next hp => exact ⟨hp, hj⟩
    · cases hj
  unfold record at h
  rcases index with - | i
  · exact .inr (habout h)
  · dsimp only at h
    split at h
    · exact .inr (habout h)
    · rcases List.mem_append.mp h with hj | hj
      · exact .inr (habout hj)
      · exact .inl (congrArg some (List.mem_singleton.mp hj).symm)

end ExclusionSet

/-! ### Generations -/

/-- The sentence before, whose symbols are older than `lo`, produced the current one: each symbol of
the current sentence comes from a symbol of that one by the choice it still has, and the choices are
draws that avoid the exclusions. -/
structure Produced (r : Run α W) (lo : Nat) (previous : Sentence) (s : RunState W ρ) : Prop where
  sorted : previous.symbols.toList.Pairwise (· < ·)
  lt : ∀ p ∈ previous.symbols.toList, p < lo
  parent : ∀ c ∈ s.current.symbols.toList, ∃ p ∈ previous.symbols.toList,
    (s.arena.get c).parent = some p ∧ (s.arena.get p).kind.expands = true ∧
      (s.arena.get p).chosen ≠ none
  drawn : ∀ p ∈ previous.symbols.toList, (s.arena.get p).kind.expands = true →
    ∀ i, (s.arena.get p).chosen = some i →
      ∃ excluded, r.rules.Draws ρ (s.arena.get p).name excluded i
  avoided : ∀ p ∈ previous.symbols.toList, (s.arena.get p).kind.expands = true →
    s.exclusions.parent = some p →
    ∀ i, (s.arena.get p).chosen = some i → i ∉ s.exclusions.indices

/-- The symbols of the current sentence begin at `lo`, and all that is remembered is older. -/
structure Layered (r : Run α W) (lo : Nat) (s : RunState W ρ) : Prop where
  lo_le : lo ≤ s.arena.size
  older : s.arena.Older
  unmade : s.arena.Unmade lo
  mem : ∀ c ∈ s.current.symbols.toList, lo ≤ c ∧ c < s.arena.size
  sorted : s.current.symbols.toList.Pairwise (· < ·)
  blamed_lt : ∀ p, s.exclusions.parent = some p → p < lo
  produced :
    (s.previous = none ∧ s.exclusions = .empty ∧
      ∀ c ∈ s.current.symbols.toList, (s.arena.get c).parent = none) ∨
    ∃ previous, s.previous = some previous ∧ Produced r lo previous s

namespace Layered

variable {r : Run α W} {lo : Nat} {s : RunState W ρ}

omit [Numeral α] in
theorem nodup (h : Layered r lo s) : s.current.symbols.toList.Nodup :=
  h.sorted.imp fun hlt => Nat.ne_of_lt hlt

omit [Numeral α] in
theorem lt_size (h : Layered r lo s) : ∀ c ∈ s.current.symbols.toList, c < s.arena.size :=
  fun c hc => (h.mem c hc).2

/-- Reading the starting text into an arena, where nothing is remembered. -/
theorem readStart {t : RunState W ρ} (harena : t.arena = (r.readStart s).2.arena)
    (hcurrent : t.current = (r.readStart s).1) (hprevious : t.previous = none)
    (hexclusions : t.exclusions = .empty) (holder : s.arena.Older) :
    Layered r s.arena.size t := by
  obtain ⟨hsize, hsymbols, hold, hnew⟩ :=
    Sentence.append_spec .empty s.arena (parse r.start s.source).1.tokens none
  have hempty : Sentence.empty.symbols.toList = [] := rfl
  have hread : r.readStart s = ((Sentence.empty.append s.arena
    (parse r.start s.source).1.tokens none).1, (r.readStart s).2) := rfl
  rw [hread] at hcurrent
  have harena : t.arena = (Sentence.empty.append s.arena
    (parse r.start s.source).1.tokens none).2 := harena
  rw [hempty, List.nil_append, ← hcurrent] at hsymbols
  rw [← harena] at hsize hold hnew
  have hmem : ∀ c ∈ t.current.symbols.toList, s.arena.size ≤ c ∧ c < t.arena.size := by
    intro c hc
    rw [hsymbols] at hc
    obtain ⟨hle, hlt⟩ := List.mem_range'_1.mp hc
    exact ⟨hle, Nat.lt_of_lt_of_eq hlt hsize.symm⟩
  refine ⟨?_, ?_, ?_, hmem, ?_, ?_, .inl ⟨hprevious, hexclusions, ?_⟩⟩
  · -- lo_le
    rw [hsize]
    exact Nat.le_add_right _ _
  · -- older: a symbol of the starting text has no producer
    intro id p hp
    by_cases hid : id < s.arena.size
    · rw [hold id hid] at hp
      exact holder hp
    · by_cases hb : id < t.arena.size
      · rw [(hnew id (Nat.le_of_not_lt hid) hb).1] at hp
        cases hp
      · rw [Arena.get_of_size_le (Nat.le_of_not_lt hb)] at hp
        cases hp
  · -- unmade
    intro id hid
    by_cases hb : id < t.arena.size
    · exact (hnew id hid hb).2
    · rw [Arena.get_of_size_le (Nat.le_of_not_lt hb)]
      rfl
  · -- sorted
    rw [hsymbols]
    exact List.pairwise_lt_range'
  · -- blamed_lt
    intro p hp
    rw [hexclusions] at hp
    cases hp
  · -- produced
    intro c hc
    exact (hnew c (hmem c hc).1 (hmem c hc).2).1

/-- The beginning of a run. -/
theorem begin (r : Run α W) (w : W) (source : ρ) : Layered r 0 (r.begin w source) := by
  have holder : (RunState.initial w source : RunState W ρ).arena.Older := by
    intro id p hp
    cases hp
  have hsize : (RunState.initial w source : RunState W ρ).arena.size = 0 := rfl
  rw [← hsize]
  exact readStart rfl rfl rfl rfl holder

/-- Writing the sentence anew gives a next generation of symbols, whose producers avoid what
failed. -/
theorem rederived {t : RunState W ρ} (hlo : lo ≤ t.arena.size) (holder : t.arena.Older)
    (hblamed : ∀ p, t.exclusions.parent = some p → p < lo)
    (hprevious : (t.previous = none ∧ t.exclusions = .empty) ∨ ∃ previous,
      t.previous = some previous ∧ previous.symbols.toList.Pairwise (· < ·) ∧
        ∀ p ∈ previous.symbols.toList, p < lo) :
    Layered r t.arena.size { (r.derive t).2 with current := (r.derive t).1 } := by
  obtain ⟨source, arena, diagnostics, hd⟩ := r.derive_frame t
  -- without a sentence before, the starting text is read again
  rcases hprevious with ⟨hnone, hexclusions⟩ | ⟨previous, hsome, hsorted, hlt⟩
  · have hstart : r.derive t = r.readStart t := by
      unfold Run.derive
      rw [hnone]
    refine readStart ?_ ?_ ?_ ?_ holder
    · rw [hstart]
    · rw [hstart]
    · rw [hd]
      exact hnone
    · rw [hd]
      exact hexclusions
  · have hnodup : previous.symbols.toList.Nodup := hsorted.imp fun h => Nat.ne_of_lt h
    have hsize : ∀ p ∈ previous.symbols.toList, p < t.arena.size :=
      fun p hp => Nat.lt_of_lt_of_le (hlt p hp) hlo
    obtain ⟨done, hw, hall⟩ := Run.derive_writing (r := r) hsome hnodup hsize
    have hexclusions : (r.derive t).2.exclusions = t.exclusions := by rw [hd]
    refine ⟨hw.size_le, hw.older holder, hw.unmade, hw.next_mem, hw.next_sorted, ?_, .inr
      ⟨previous, by rw [hd]; exact hsome, hsorted, hsize, ?_, ?_, ?_⟩⟩
    · intro p hb
      have hb : (r.derive t).2.exclusions.parent = some p := hb
      rw [hexclusions] at hb
      exact Nat.lt_of_lt_of_le (hblamed p hb) hlo
    · intro c hc
      obtain ⟨hle, hcb⟩ := hw.next_mem c hc
      obtain ⟨-, p, hpd, hparent, hchosen⟩ := hw.fresh c hle hcb
      obtain ⟨hmem, hpl⟩ := hw.read p hpd
      have hk : ((r.derive t).2.arena.get p).kind.expands = true := by
        rw [hw.kind_eq hpl]
        exact hw.expands p hpd
      exact ⟨p, hmem, hparent, hk, hchosen⟩
    · intro p hmem hk i hi
      have hk : ((r.derive t).2.arena.get p).kind.expands = true := hk
      rw [hw.kind_eq (hsize p hmem)] at hk
      have hname : ((r.derive t).2.arena.get p).name = (t.arena.get p).name :=
        congrArg Token.name (hw.token p (hsize p hmem))
      refine ⟨r.excludedFor t.exclusions p, ?_⟩
      show r.rules.Draws ρ ((r.derive t).2.arena.get p).name _ i
      rw [hname]
      exact hw.drawn p (hall p hmem hk) i hi
    · -- the choice was drawn with the exclusions in force
      intro p hmem hk hb i hi
      have hk : ((r.derive t).2.arena.get p).kind.expands = true := hk
      have hb : (r.derive t).2.exclusions.parent = some p := hb
      rw [hw.kind_eq (hsize p hmem)] at hk
      rw [hexclusions] at hb
      have hnot := (hw.drawn p (hall p hmem hk) i hi).not_mem
      have hex : r.excludedFor t.exclusions p = t.exclusions.indices := by
        simp [Run.excludedFor, hb]
      show i ∉ (r.derive t).2.exclusions.indices
      rw [hexclusions, ← hex]
      exact hnot

variable [World W ρ]

/-- The sentence that a completed pass has written is the next generation. -/
theorem commit {s' : RunState W ρ} {next : Sentence} (h : Layered r lo s)
    (hp : r.pass s = .completed next s') : Layered r s.arena.size (s'.commit next) := by
  obtain ⟨done, hw, hall⟩ := Run.completed_writing h.nodup h.lt_size hp
  have hcurrent : s'.current = s.current := by simpa [hp] using r.pass_current s
  have hexclusions : s'.exclusions = s.exclusions := by simpa [hp] using r.pass_exclusions s
  refine ⟨hw.size_le, hw.older h.older, hw.unmade, hw.next_mem, hw.next_sorted, ?_, .inr
    ⟨s'.current, rfl, ?_⟩⟩
  · intro p hb
    have hb : s'.exclusions.parent = some p := hb
    rw [hexclusions] at hb
    exact Nat.lt_of_lt_of_le (h.blamed_lt p hb) h.lo_le
  rw [hcurrent]
  refine ⟨h.sorted, h.lt_size, ?_, ?_, ?_⟩
  · intro c hc
    obtain ⟨hle, hlt⟩ := hw.next_mem c hc
    obtain ⟨-, p, hpd, hparent, hchosen⟩ := hw.fresh c hle hlt
    obtain ⟨hmem, hpl⟩ := hw.read p hpd
    have hk : (s'.arena.get p).kind.expands = true := by
      rw [hw.kind_eq hpl]
      exact hw.expands p hpd
    exact ⟨p, hmem, hparent, hk, hchosen⟩
  · intro p hmem hk i hi
    have hk : (s'.arena.get p).kind.expands = true := hk
    rw [hw.kind_eq (h.lt_size p hmem)] at hk
    have hname : (s'.arena.get p).name = (s.arena.get p).name :=
      congrArg Token.name (hw.token p (h.lt_size p hmem))
    refine ⟨[], ?_⟩
    show r.rules.Draws ρ (s'.arena.get p).name [] i
    rw [hname]
    exact hw.drawn p (hall p hmem hk) i hi
  · -- what is remembered is older than the symbols that were read
    intro p hmem _ hb
    have hb : s'.exclusions.parent = some p := hb
    rw [hexclusions] at hb
    exact absurd (h.blamed_lt p hb) (Nat.not_lt.mpr (h.mem p hmem).1)

/-- What a pass that failed leaves: the generations, and of the producers above the symbol by which
it failed, all that is known of them. -/
structure Failed (r : Run α W) (lo : Nat) (s : RunState W ρ) (symbol : SymbolId)
    (s' : RunState W ρ) : Prop where
  symbol_mem : symbol ∈ s.current.symbols.toList
  size_le : s.arena.size ≤ s'.arena.size
  older : s'.arena.Older
  get_eq : ∀ p < lo, s'.arena.get p = s.arena.get p
  parent_eq : ∀ c ∈ s.current.symbols.toList, (s'.arena.get c).parent = (s.arena.get c).parent

/-- A pass that fails does not change the symbols that are older than the current sentence, nor whom
the symbols of the sentence come from. -/
theorem failed {s' : RunState W ρ} {symbol : SymbolId} (h : Layered r lo s)
    (hp : r.pass s = .violated symbol s') : Failed r lo s symbol s' := by
  obtain ⟨hmem, done, next, hw⟩ := Run.violated_writing h.nodup h.lt_size hp
  refine ⟨hmem, hw.size_le, hw.older h.older, ?_, ?_⟩
  · intro p hlo
    have hlt : p < s.arena.size := Nat.lt_of_lt_of_le hlo h.lo_le
    -- the pass gives choices and entities to symbols of the current sentence only
    have hnot : p ∉ s.current.symbols.toList := fun hm => Nat.not_lt.mpr (h.mem p hm).1 hlo
    have htoken := hw.token p hlt
    have hparent := hw.parent p hlt
    have hchosen := hw.chosen p hlt fun hd => hnot (hw.read p hd).1
    have hentity := hw.entity p hlt hnot
    rcases hs' : s'.arena.get p with ⟨token, parent, chosen, entity⟩
    rcases hs : s.arena.get p with ⟨token', parent', chosen', entity'⟩
    simp only [hs, hs'] at htoken hparent hchosen hentity
    subst htoken hparent hchosen hentity
    rfl
  · exact fun c hc => hw.parent c (h.lt_size c hc)

/-- The sentence of another attempt is a next generation too. -/
theorem retry {s' : RunState W ρ} {symbol : SymbolId} (h : Layered r lo s)
    (hp : r.pass s = .violated symbol s') :
    Layered r s'.arena.size (r.retry symbol s'.abandon) := by
  have hf := h.failed hp
  obtain ⟨_, _, _, ha⟩ := s'.abandon_frame
  have harena : s'.abandon.arena = s'.arena := by rw [ha]
  have hprevious : s'.abandon.previous = s.previous := by
    rw [ha]
    simpa [hp] using r.pass_previous s
  have hexclusions : s'.abandon.exclusions = s.exclusions := by
    rw [ha]
    simpa [hp] using r.pass_exclusions s
  have hlo : lo ≤ s'.arena.size := Nat.le_trans h.lo_le hf.size_le
  have hsymbol : (s'.abandon.arena.get symbol).parent = (s.arena.get symbol).parent := by
    rw [harena, hf.parent_eq symbol hf.symbol_mem]
  have hblamed : (s'.abandon.blame symbol).arena = s'.arena := by
    rw [RunState.blame_arena, harena]
  have holder : (s'.abandon.blame symbol).arena.Older := by
    rw [hblamed]
    exact hf.older
  rw [← hblamed] at hlo ⊢
  rcases s'.abandon.blame_cases symbol with ⟨hnone, hb⟩ | ⟨p, hparent, hb⟩
  · -- only a symbol of the starting text has no producer
    rw [hsymbol] at hnone
    have hproduced : s.previous = none ∧ s.exclusions = .empty := by
      rcases h.produced with ⟨h₁, h₂, -⟩ | ⟨previous, -, hprod⟩
      · exact ⟨h₁, h₂⟩
      · obtain ⟨q, -, hq, -⟩ := hprod.parent symbol hf.symbol_mem
        rw [hnone] at hq
        cases hq
    refine rederived hlo holder ?_ (.inl ⟨?_, ?_⟩)
    · intro p hp'
      rw [hb, hexclusions] at hp'
      exact h.blamed_lt p hp'
    · rw [hb]
      exact hprevious.trans hproduced.1
    · rw [hb]
      exact hexclusions.trans hproduced.2
  · -- any other has one in the sentence before, and this one is blamed
    rw [hsymbol] at hparent
    rcases h.produced with ⟨-, -, hnone⟩ | ⟨previous, hsome, hprod⟩
    · rw [hnone symbol hf.symbol_mem] at hparent
      cases hparent
    obtain ⟨q, hq, hqp, -⟩ := hprod.parent symbol hf.symbol_mem
    rw [hparent] at hqp
    cases hqp
    have hp' : (s'.abandon.blame symbol).exclusions.parent = some p := by
      rw [hb]
      exact ExclusionSet.parent_record ..
    refine rederived hlo holder ?_ (.inr ⟨previous, ?_, hprod.sorted, hprod.lt⟩)
    · intro p'' hp''
      rw [hp'] at hp''
      cases hp''
      exact hprod.lt p hq
    · rw [hb]
      exact hprevious.trans hsome

/-- **At every pass of a run the symbols lie in layers.** -/
theorem of_reaches {w : W} {source : ρ} (h : r.Reaches (r.begin w source) s) :
    ∃ lo, Layered r lo s := by
  induction h with
  | refl => exact ⟨0, begin r w source⟩
  | tail _ hstep ih =>
    obtain ⟨lo, ih⟩ := ih
    rcases Run.step_again hstep with ⟨next, s', hp, -, rfl⟩ | ⟨symbol, s', hp, rfl⟩
    · exact ⟨_, ih.commit hp⟩
    · exact ⟨_, ih.retry hp⟩

end Layered

end SpatialGrammar
