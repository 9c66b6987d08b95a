/-
SpatialGrammar/Proofs/Selection.lean

What a draw from a rule can give.

The position that is drawn is one of a live alternative, so it is not excluded, whatever
numbers the weights are and whatever the source gives.

If the source gives numbers of the unit interval, the alternative has a positive
probability as well.  In single precision this is not a matter of intervals, because
sums round: the walk stops where the running sum rises above the roll, and where it
rises, something was added that is not zero.
-/
import Mathlib.Data.List.Perm.Subperm
import SpatialGrammar.Proofs.Binary32Order
import SpatialGrammar.Rule.Table

namespace SpatialGrammar

variable {α ρ : Type}

/-! ### Live alternatives -/

namespace Alternative

/-- A live alternative stands at its position, which is not excluded. -/
theorem mem_live {outputs : List (Alternative α)} {excluded : List Nat} {a : Alternative α}
    {i : Nat} (h : (a, i) ∈ live outputs excluded) : outputs[i]? = some a ∧ i ∉ excluded := by
  obtain ⟨hzip, hkeep⟩ := List.mem_filter.mp h
  exact ⟨List.mem_zipIdx_iff_getElem?.mp hzip, by simpa using hkeep⟩

variable [Scalar α]

/-- The walk along the running sums stops at one of the alternatives. -/
theorem mem_of_firstExceeding {roll before : α} {live : List (Alternative α × Nat)} {i : Nat}
    (h : firstExceeding roll before live = some i) : ∃ a, (a, i) ∈ live := by
  induction live generalizing before with
  | nil => cases h
  | cons entry rest ih =>
    obtain ⟨a, j⟩ := entry
    unfold firstExceeding at h
    dsimp only at h
    split at h
    · obtain rfl := Option.some.inj h
      exact ⟨a, List.mem_cons_self⟩
    · obtain ⟨b, hb⟩ := ih h
      exact ⟨b, List.mem_cons_of_mem _ hb⟩

section

variable [RandomSource ρ α] {outputs : List (Alternative α)} {excluded : List Nat} {s : ρ}

/-- Without any weight nothing is drawn. -/
theorem select_of_total_le (h : total outputs excluded ≤ 0) :
    select outputs excluded s = (none, s) := if_pos h

/-- Otherwise one number is, and the walk goes on until the sum has risen above its share. -/
theorem select_of_not_total_le (h : ¬ total outputs excluded ≤ 0) :
    select outputs excluded s =
      (firstExceeding ((RandomSource.nextUnit s).1 * total outputs excluded) 0
        (live outputs excluded), (RandomSource.nextUnit s).2) := if_neg h

/-- What is drawn is where the walk stops, for some number of the source and some total. -/
theorem select_cases {i : Nat} (h : (select outputs excluded s).1 = some i) :
    ¬ total outputs excluded ≤ 0 ∧
      firstExceeding ((RandomSource.nextUnit s).1 * total outputs excluded) 0
        (live outputs excluded) = some i := by
  by_cases htotal : total outputs excluded ≤ 0
  · rw [select_of_total_le htotal] at h
    cases h
  · rw [select_of_not_total_le htotal] at h
    exact ⟨htotal, h⟩

end

end Alternative

/-! ### Draws from a table -/

namespace RuleTable

/-- The rule of a name is the first one that is meant for it. -/
theorem rule?_ofList (rules : List (Rule α)) (name : String) :
    (ofList rules).rule? name = rules.find? fun rule => rule.name = name :=
  (Index.get?_ofList_map Rule.name id rules name).trans Option.map_id_apply

/-- What is drawn for a name is an alternative of its rule that is not blank. -/
theorem lookup_eq_some_iff [Scalar α] [RandomSource ρ α] {t : RuleTable α} {name : String}
    {excluded : List Nat} {s : ρ} {drawn : Drawn} :
    (t.lookup name excluded s).1 = some drawn ↔ ∃ rule a, t.rule? name = some rule ∧
      (Alternative.select rule.outputs excluded s).1 = some drawn.index ∧
      rule.outputs[drawn.index]? = some a ∧ Text.isAllBlank a.template.toList = false ∧
      drawn.template = a.template := by
  obtain ⟨index, template⟩ := drawn
  unfold lookup
  rcases t.rule? name with - | rule
  · simp
  constructor
  · intro h
    obtain ⟨hi, a, ha, hblank, htemplate⟩ := by simpa [Option.bind_eq_some_iff] using h
    exact ⟨rule, a, rfl, hi, ha, hblank, htemplate.symm⟩
  · rintro ⟨rule, a, ⟨⟩, hi, ha, hblank, rfl⟩
    simp [hi, ha, hblank]

/-- The table draws the alternative at position `i` for a name, from some state of the source. -/
def Draws (ρ : Type) [Scalar α] [RandomSource ρ α] (t : RuleTable α) (name : String)
    (excluded : List Nat) (i : Nat) : Prop :=
  ∃ (source : ρ) (drawn : Drawn),
    (t.lookup name excluded source).1 = some drawn ∧ drawn.index = i

end RuleTable

variable [Scalar α] [RandomSource ρ α]

/-- A draw for a name is a draw from its rule. -/
theorem RuleTable.Draws.select {t : RuleTable α} {name : String} {excluded : List Nat} {i : Nat}
    (h : t.Draws ρ name excluded i) :
    ∃ rule, t.rule? name = some rule ∧
      ∃ source : ρ, (Alternative.select rule.outputs excluded source).1 = some i := by
  obtain ⟨source, drawn, hl, rfl⟩ := h
  obtain ⟨rule, -, hrule, hi, -⟩ := lookup_eq_some_iff.mp hl
  exact ⟨rule, hrule, source, hi⟩

/-- **An alternative that is drawn was not excluded.** -/
theorem RuleTable.Draws.not_mem {t : RuleTable α} {name : String} {excluded : List Nat} {i : Nat}
    (h : t.Draws ρ name excluded i) : i ∉ excluded := by
  obtain ⟨rule, -, source, hs⟩ := h.select
  obtain ⟨a, ha⟩ := Alternative.mem_of_firstExceeding (Alternative.select_cases hs).2
  exact (Alternative.mem_live ha).2

/-! ### Positive probabilities -/

/-- The numbers that the source gives are those of the unit interval. -/
def RandomSource.InUnit (ρ : Type) [RandomSource ρ Float32] : Prop :=
  ∀ s : ρ, 0 ≤ (RandomSource.nextUnit s).1 ∧ (RandomSource.nextUnit s).1 < 1

/-- A source that gives a half every time. -/
inductive Halves where
  | half

instance : RandomSource Halves Float32 where
  nextUnit s := (Float32.ofBits 0x3f000000, s)
  nextIndex _ s := (0, s)

namespace Alternative

/-- An alternative whose probability is not positive has no weight. -/
theorem weight_eq_zero {a : Alternative Float32} (h : ¬ 0 < a.probability) : a.weight = 0 :=
  Binary32.greatest_zero h

/-- The walk stops at an alternative that has a weight. -/
theorem pos_of_firstExceeding {roll before : Float32} {live : List (Alternative Float32 × Nat)}
    {i : Nat} (hroll : ¬ roll < before) (h : firstExceeding roll before live = some i) :
    ∃ a, (a, i) ∈ live ∧ 0 < a.probability := by
  induction live generalizing before with
  | nil => cases h
  | cons entry rest ih =>
    obtain ⟨a, j⟩ := entry
    unfold firstExceeding at h
    dsimp only at h
    split at h
    · next hlt =>
      obtain rfl := Option.some.inj h
      refine ⟨a, List.mem_cons_self, ?_⟩
      by_contra hpos
      rw [weight_eq_zero hpos] at hlt
      exact hroll (Binary32.lt_of_lt_add_zero hlt)
    · next hlt =>
      obtain ⟨b, hb, hpos⟩ := ih hlt h
      exact ⟨b, List.mem_cons_of_mem _ hb, hpos⟩

end Alternative

namespace RuleTable

/-- How many alternatives of positive probability there are for a name. -/
def positives (t : RuleTable Float32) (name : String) : Nat :=
  match t.rule? name with
  | none => 0
  | some rule => rule.outputs.countP fun a => 0 < a.probability

/-- The alternative for a name at the given position has a positive probability. -/
def PositiveAt (t : RuleTable Float32) (name : String) (i : Nat) : Prop :=
  ∃ rule a, t.rule? name = some rule ∧ rule.outputs[i]? = some a ∧ 0 < a.probability

variable {t : RuleTable Float32} {name : String}

/-- **An alternative that is drawn has a positive probability.** -/
theorem Draws.positiveAt {ρ : Type} [RandomSource ρ Float32] (hρ : RandomSource.InUnit ρ)
    {excluded : List Nat} {i : Nat} (h : t.Draws ρ name excluded i) : t.PositiveAt name i := by
  obtain ⟨rule, hrule, source, hs⟩ := h.select
  obtain ⟨htotal, hfirst⟩ := Alternative.select_cases hs
  have hroll := Binary32.not_mul_lt_zero (hρ source).1 htotal
  obtain ⟨a, ha, hpos⟩ := Alternative.pos_of_firstExceeding hroll hfirst
  exact ⟨rule, a, hrule, (Alternative.mem_live ha).1, hpos⟩

/-- There are no more different positions than alternatives. -/
theorem length_le_positives {tried : List Nat} (hnodup : tried.Nodup)
    (h : ∀ i ∈ tried, t.PositiveAt name i) : tried.length ≤ t.positives name := by
  rcases hr : t.rule? name with - | rule
  · rcases tried with - | ⟨i, tried⟩
    · exact Nat.zero_le _
    · obtain ⟨rule, -, hrule, -⟩ := h i List.mem_cons_self
      rw [hr] at hrule
      cases hrule
  · let entries := rule.outputs.zipIdx.filter fun a => 0 < a.1.probability
    -- the positions are told apart, so they are counted among those of the alternatives
    have hsubset : tried ⊆ entries.map Prod.snd := by
      intro i hi
      obtain ⟨rule', a, hrule', ha, hpos⟩ := h i hi
      rw [hr] at hrule'
      cases hrule'
      refine List.mem_map.mpr ⟨(a, i), List.mem_filter.mpr ⟨?_, by simpa using hpos⟩, rfl⟩
      exact List.mem_zipIdx_iff_getElem?.mpr ha
    have hcount : entries.length = t.positives name := by
      have hfst : rule.outputs = rule.outputs.zipIdx.map Prod.fst := by simp
      unfold positives
      rw [hr]
      show _ = rule.outputs.countP _
      rw [hfst, List.countP_map, ← List.countP_eq_length_filter]
      simp [Function.comp_def]
    calc tried.length ≤ (entries.map Prod.snd).length :=
          (List.subperm_of_subset hnodup hsubset).length_le
      _ = t.positives name := by rw [List.length_map, hcount]

end RuleTable

end SpatialGrammar
