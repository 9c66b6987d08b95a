/-
SpatialGrammar/Proofs/RuleLookup.lean

Looking a name up is searching the rules in the order in which they were written.

The index keeps one rule for each name, and it is the rule that the search finds
(`RuleTable.rule?_ofList`).  The names in the index have no blanks, so a name with a blank is not
among them.

What becomes of the source is told apart from what is drawn: an alternative with nothing but
blanks gives no output, and yet its number has been drawn.  Nothing is drawn only where there is
no rule or no weight, and weights that are zero add up to zero also where sums are rounded.
-/
import SpatialGrammar.Proofs.Shares

namespace SpatialGrammar

variable {ρ : Type}

/-! ### Blanks -/

theorem Text.isAllBlank_eq_false_iff {cs : List Char} :
    isAllBlank cs = false ↔ ∃ c ∈ cs, isBlank c = false :=
  List.all_eq_false.trans (by simp)

/-- The name of a rule has no blanks. -/
theorem Rule.isBlank_eq_false_of_mem_name {α : Type} {r : Rule α} {c : Char}
    (hc : c ∈ r.name.toList) : Text.isBlank c = false := by
  rw [name, String.toList_ofList] at hc
  obtain ⟨-, hkeep⟩ := List.mem_filter.mp hc
  simpa using hkeep

/-! ### Alternatives without weight -/

/-- Where no live alternative has a positive probability there is no weight. -/
theorem Alternative.total_eq_zero {outputs : List (Alternative Float32)} {excluded : List Nat}
    (h : ∀ i a, outputs[i]? = some a → i ∉ excluded → ¬ 0 < a.probability) :
    total outputs excluded = 0 := by
  induction outputs using List.reverseRecOn with
  | nil => rfl
  | append_singleton outputs a ih =>
    have hfront : total outputs excluded = 0 := by
      apply ih
      intro i b hb
      obtain ⟨hlt, -⟩ := List.getElem?_eq_some_iff.mp hb
      exact h i b ((List.getElem?_append_left hlt).trans hb)
    rw [total_concat, hfront]
    split
    · rfl
    · next hlive =>
      -- the sum of two zeros is not rounded
      rw [weight_eq_zero (h outputs.length a (by simp) hlive)]
      rfl

/-! ### Looking up -/

namespace RuleTable

/-- A name with a blank has no rule. -/
theorem rule?_eq_none {α : Type} {rules : List (Rule α)} {name : String} {c : Char}
    (hc : c ∈ name.toList) (hblank : Text.isBlank c = true) : (ofList rules).rule? name = none := by
  rw [rule?_ofList, List.find?_eq_none]
  intro r _ hr
  rw [← of_decide_eq_true hr] at hc
  rw [Rule.isBlank_eq_false_of_mem_name hc] at hblank
  cases hblank

section

variable {α : Type} [Scalar α] [RandomSource ρ α] {t : RuleTable α} {name : String}
  {excluded : List Nat} {s : ρ} {rule : Rule α}

/-- Whatever is drawn, the source is left as the draw from the rule leaves it. -/
theorem lookup_snd (hrule : t.rule? name = some rule) :
    (t.lookup name excluded s).2 = (Alternative.select rule.outputs excluded s).2 := by
  unfold lookup
  rw [hrule]

theorem lookup_of_rule?_eq_none (hrule : t.rule? name = none) :
    t.lookup name excluded s = (none, s) := by
  unfold lookup
  rw [hrule]

/-- From a rule without weight nothing is drawn. -/
theorem lookup_of_total_le (hrule : t.rule? name = some rule)
    (htotal : Alternative.total rule.outputs excluded ≤ 0) :
    t.lookup name excluded s = (none, s) := by
  unfold lookup
  rw [hrule]
  show (Option.bind (Alternative.select rule.outputs excluded s).1 _,
    (Alternative.select rule.outputs excluded s).2) = (none, s)
  rw [Alternative.select_of_total_le htotal]
  rfl

end

variable [RandomSource ρ Float32]

/-- **Looking a name up is drawing from the first rule that is meant for it.**  There is no
rule for a name with a blank; what is drawn is an alternative of the rule that is not blank;
and nothing is taken from the source where there is no rule, or none of its live alternatives
has a positive probability. -/
theorem lookup_eq_search (rules : List (Rule Float32)) (name : String) (excluded : List Nat)
    (s : ρ) :
    (ofList rules).rule? name = rules.find? (fun r => r.name = name) ∧
    ((∃ c ∈ name.toList, Text.isBlank c = true) → (ofList rules).rule? name = none) ∧
    (∀ drawn, ((ofList rules).lookup name excluded s).1 = some drawn ↔
      ∃ rule a, rules.find? (fun r => r.name = name) = some rule ∧
        (Alternative.select rule.outputs excluded s).1 = some drawn.index ∧
        rule.outputs[drawn.index]? = some a ∧
        (∃ c ∈ a.template.toList, Text.isBlank c = false) ∧ drawn.template = a.template) ∧
    (∀ rule, rules.find? (fun r => r.name = name) = some rule →
      ((ofList rules).lookup name excluded s).2 =
        (Alternative.select rule.outputs excluded s).2) ∧
    ((∀ rule, rules.find? (fun r => r.name = name) = some rule → ∀ i a, rule.outputs[i]? = some a →
        i ∉ excluded → ¬ 0 < a.probability) →
      (ofList rules).lookup name excluded s = (none, s)) := by
  have hrule := rule?_ofList rules name
  refine ⟨hrule, fun ⟨c, hc, hblank⟩ => rule?_eq_none hc hblank, fun drawn => ?_, fun rule hr => ?_,
    fun hweightless => ?_⟩
  · rw [lookup_eq_some_iff, hrule]
    simp only [Text.isAllBlank_eq_false_iff]
  · exact lookup_snd (hrule.trans hr)
  · rcases hr : rules.find? (fun r => r.name = name) with - | rule
    · exact lookup_of_rule?_eq_none (hrule.trans hr)
    · apply lookup_of_total_le (hrule.trans hr)
      rw [Alternative.total_eq_zero (hweightless rule hr)]
      decide

/-- Two rules for one name, which the first one spells with blanks. -/
def sameName : List (Rule Float32) :=
  [⟨" Ro om\u00a0", [⟨1, "A"⟩, ⟨0, "B"⟩]⟩, ⟨"Room", [⟨1, "C"⟩]⟩]

/-- The first one counts, and nothing is drawn once its only weight is excluded. -/
theorem lookup_eq_search_sameName :
    ((ofList sameName).lookup "Room" [] Halves.half).1 = some ⟨0, "A"⟩ ∧
    (ofList sameName).rule? "Ro om" = none ∧
    (ofList sameName).lookup "Room" [0] Halves.half = (none, Halves.half) := by
  have hfirst : sameName.find? (fun r => r.name = "Room") =
      some ⟨" Ro om\u00a0", [⟨1, "A"⟩, ⟨0, "B"⟩]⟩ := by decide +kernel
  refine ⟨?_, ?_, ?_⟩
  · apply ((lookup_eq_search sameName "Room" [] Halves.half).2.2.1 ⟨0, "A"⟩).mpr
    exact ⟨_, ⟨1, "A"⟩, hfirst, by decide +kernel, rfl, ⟨'A', by decide, by decide⟩, rfl⟩
  · apply (lookup_eq_search sameName "Ro om" [] Halves.half).2.1
    exact ⟨' ', by decide, by decide⟩
  · apply (lookup_eq_search sameName "Room" [0] Halves.half).2.2.2.2
    intro rule hrule i a ha hi
    obtain rfl := Option.some.inj (hfirst.symm.trans hrule)
    match i with
    | 0 => exact absurd List.mem_cons_self hi
    | 1 =>
      obtain rfl := Option.some.inj ha
      decide
    | i + 2 => cases ha

end RuleTable

end SpatialGrammar
