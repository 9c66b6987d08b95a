/-
SpatialGrammar/Proofs/Shares.lean

How a draw shares out the total weight.

The weight before a position is that of the live alternatives in front of it, added from the
left as everything is added here.  A walk stops at the first live position after which more
weight lies than the roll (`Alternative.StopsAt`), and this holds of rounded sums as well: the
total and the running sums are the same sums.

Over the reals nothing is lost by rounding.  An alternative is drawn by the numbers of one
interval, whose ends are the weights before and after it over the total, and an alternative
that is excluded might as well have no weight.
-/
import SpatialGrammar.Proofs.ExactNumbers
import SpatialGrammar.Proofs.Selection

namespace SpatialGrammar

namespace Alternative

variable {α ρ : Type}

/-! ### Running sums -/

section Sums

theorem live_concat (outputs : List (Alternative α)) (excluded : List Nat) (a : Alternative α) :
    live (outputs ++ [a]) excluded = live outputs excluded ++
      if outputs.length ∈ excluded then [] else [(a, outputs.length)] := by
  unfold live
  rw [List.zipIdx_append, List.filter_append]
  congr 1
  by_cases h : outputs.length ∈ excluded <;> simp [h]

variable [Scalar α] {outputs : List (Alternative α)} {excluded : List Nat} {roll : α} {k : Nat}
  {a : Alternative α}

/-- The total weight of the alternatives before a position that are not excluded. -/
def totalBefore (outputs : List (Alternative α)) (excluded : List Nat) (k : Nat) : α :=
  total (outputs.take k) excluded

theorem total_concat : total (outputs ++ [a]) excluded =
    if outputs.length ∈ excluded then total outputs excluded
    else total outputs excluded + a.weight := by
  unfold total Scalar.sum
  rw [live_concat]
  by_cases h : outputs.length ∈ excluded <;> simp [h]

theorem totalBefore_zero : totalBefore outputs excluded 0 = 0 := rfl

theorem totalBefore_of_length_le (h : outputs.length ≤ k) :
    totalBefore outputs excluded k = total outputs excluded := by
  unfold totalBefore
  rw [List.take_of_length_le h]

theorem totalBefore_add_one (ha : outputs[k]? = some a) : totalBefore outputs excluded (k + 1) =
    if k ∈ excluded then totalBefore outputs excluded k
    else totalBefore outputs excluded k + a.weight := by
  obtain ⟨hlt, -⟩ := List.getElem?_eq_some_iff.mp ha
  have hlength : (outputs.take k).length = k := List.length_take_of_le hlt.le
  unfold totalBefore
  rw [List.take_add_one, ha, Option.toList_some, total_concat, hlength]

/-- A live alternative adds its weight. -/
theorem totalBefore_succ (ha : outputs[k]? = some a) (hk : k ∉ excluded) :
    totalBefore outputs excluded (k + 1) = totalBefore outputs excluded k + a.weight :=
  (totalBefore_add_one ha).trans (if_neg hk)

/-- Behind the last one there is nothing to add. -/
theorem totalBefore_succ_of_length_le (h : outputs.length ≤ k) :
    totalBefore outputs excluded (k + 1) = totalBefore outputs excluded k := by
  rw [totalBefore_of_length_le h, totalBefore_of_length_le (Nat.le_succ_of_le h)]

/-- An excluded one adds nothing. -/
theorem totalBefore_succ_excluded (hk : k ∈ excluded) :
    totalBefore outputs excluded (k + 1) = totalBefore outputs excluded k := by
  rcases ha : outputs[k]? with - | a
  · exact totalBefore_succ_of_length_le (List.getElem?_eq_none_iff.mp ha)
  · exact (totalBefore_add_one ha).trans (if_pos hk)

/-! ### Where a walk stops -/

/-- The walk stops at the first live position after which more weight lies than the roll. -/
structure StopsAt (outputs : List (Alternative α)) (excluded : List Nat) (roll : α) (k : Nat) :
    Prop where
  lt : k < outputs.length
  live : k ∉ excluded
  exceeds : roll < totalBefore outputs excluded (k + 1)
  first : ∀ j < k, j ∉ excluded → ¬ roll < totalBefore outputs excluded (j + 1)

theorem firstExceeding_concat {before : α} {entries : List (Alternative α × Nat)} :
    firstExceeding roll before (entries ++ [(a, k)]) =
      (firstExceeding roll before entries).or
        (if roll < (entries.map fun e => e.1.weight).foldl (· + ·) before + a.weight then some k
        else none) := by
  induction entries generalizing before with
  | nil => rfl
  | cons entry entries ih =>
    obtain ⟨b, j⟩ := entry
    show (if roll < before + b.weight then some j else _) = Option.or (if _ then some j else _) _
    split
    · rfl
    · exact ih

/-- The walk is a search for such a position. -/
theorem firstExceeding_live : firstExceeding roll 0 (live outputs excluded) =
    (List.range outputs.length).find? fun k =>
      decide (k ∉ excluded ∧ roll < totalBefore outputs excluded (k + 1)) := by
  induction outputs using List.reverseRecOn with
  | nil => rfl
  | append_singleton outputs a ih =>
    -- the running sums of the alternatives in front are not changed by a further one
    have hfront : (List.range outputs.length).find? (fun k =>
        decide (k ∉ excluded ∧ roll < totalBefore (outputs ++ [a]) excluded (k + 1))) =
        (List.range outputs.length).find? fun k =>
          decide (k ∉ excluded ∧ roll < totalBefore outputs excluded (k + 1)) := by
      apply List.find?_congr
      intro k hk
      unfold totalBefore
      rw [List.take_append_of_le_length (List.mem_range.mp hk)]
    have hlast : totalBefore (outputs ++ [a]) excluded (outputs.length + 1) =
        total (outputs ++ [a]) excluded := totalBefore_of_length_le (by simp)
    rw [List.length_append, List.length_singleton, List.range_succ, List.find?_append, hfront, ← ih,
      live_concat, List.find?_singleton, hlast, total_concat]
    -- what is left is the last position: either it is passed over or its sum is the total
    by_cases h : outputs.length ∈ excluded
    · simp [h]
    · rw [if_neg h, if_neg h, firstExceeding_concat]
      simp [h, total, Scalar.sum]

theorem firstExceeding_eq_some_iff :
    firstExceeding roll 0 (live outputs excluded) = some k ↔ StopsAt outputs excluded roll k := by
  rw [firstExceeding_live, List.find?_range_eq_some]
  simp only [decide_eq_true_eq, List.mem_range, Bool.not_eq_true', decide_eq_false_iff_not, not_and]
  constructor
  · rintro ⟨⟨hlive, hexceeds⟩, hlt, hfirst⟩
    exact ⟨hlt, hlive, hexceeds, hfirst⟩
  · rintro ⟨hlt, hlive, hexceeds, hfirst⟩
    exact ⟨⟨hlive, hexceeds⟩, hlt, hfirst⟩

/-- If there is more weight than the roll before a position, the sum has risen above the roll at a
live position before it. -/
theorem exists_exceeding (hroll : ¬ roll < 0) (h : roll < totalBefore outputs excluded k) :
    ∃ j < k, j < outputs.length ∧ j ∉ excluded ∧ roll < totalBefore outputs excluded (j + 1) := by
  induction k with
  | zero =>
    rw [totalBefore_zero] at h
    exact absurd h hroll
  | succ k ih =>
    by_cases hkeep : totalBefore outputs excluded (k + 1) = totalBefore outputs excluded k
    · rw [hkeep] at h
      obtain ⟨j, hj, hrest⟩ := ih h
      exact ⟨j, Nat.lt_succ_of_lt hj, hrest⟩
    · refine ⟨k, Nat.lt_succ_self k, ?_, fun hk => hkeep (totalBefore_succ_excluded hk), h⟩
      by_contra hge
      exact hkeep (totalBefore_succ_of_length_le (Nat.not_lt.mp hge))

/-- Before the position where the walk stops the sum has not risen above the roll. -/
theorem StopsAt.not_lt_totalBefore (h : StopsAt outputs excluded roll k) (hroll : ¬ roll < 0) :
    ¬ roll < totalBefore outputs excluded k := by
  intro hbefore
  obtain ⟨j, hj, -, hlive, hexceeds⟩ := exists_exceeding hroll hbefore
  exact h.first j hj hlive hexceeds

/-- **A roll below the total is met.** -/
theorem exists_firstExceeding (hroll : ¬ roll < 0) (h : roll < total outputs excluded) :
    ∃ k, firstExceeding roll 0 (live outputs excluded) = some k := by
  rw [← totalBefore_of_length_le (Nat.le_refl _)] at h
  obtain ⟨j, -, hj, hlive, hexceeds⟩ := exists_exceeding hroll h
  rw [firstExceeding_live, ← Option.isSome_iff_exists, List.find?_isSome]
  exact ⟨j, List.mem_range.mpr hj, decide_eq_true ⟨hlive, hexceeds⟩⟩

end Sums

/-! ### Shares of the unit interval -/

section Exact

variable {outputs : List (Alternative ℝ)} {excluded : List Nat} {roll : ℝ} {k : Nat}

theorem weight_nonneg (a : Alternative ℝ) : 0 ≤ a.weight := le_max_right _ _

theorem totalBefore_mono : Monotone (totalBefore outputs excluded) := by
  apply monotone_nat_of_le_succ
  intro k
  by_cases hk : k ∈ excluded
  · exact (totalBefore_succ_excluded hk).ge
  rcases ha : outputs[k]? with - | a
  · exact (totalBefore_succ_of_length_le (List.getElem?_eq_none_iff.mp ha)).ge
  · rw [totalBefore_succ ha hk]
    exact le_add_of_nonneg_right (weight_nonneg a)

theorem totalBefore_nonneg : 0 ≤ totalBefore outputs excluded k := totalBefore_mono (Nat.zero_le k)

theorem totalBefore_le_total : totalBefore outputs excluded k ≤ total outputs excluded := by
  rw [← totalBefore_of_length_le (Nat.le_max_right k outputs.length)]
  exact totalBefore_mono (Nat.le_max_left _ _)

/-- A roll that is not negative stops the walk at the position in whose share it falls. -/
theorem stopsAt_iff (hroll : 0 ≤ roll) : StopsAt outputs excluded roll k ↔
    ∃ a, outputs[k]? = some a ∧ k ∉ excluded ∧
      roll ∈ Set.Ico (totalBefore outputs excluded k)
        (totalBefore outputs excluded k + a.weight) := by
  constructor
  · intro h
    have ha := List.getElem?_eq_getElem h.lt
    refine ⟨_, ha, h.live, ?_, totalBefore_succ ha h.live ▸ h.exceeds⟩
    exact not_lt.mp (h.not_lt_totalBefore hroll.not_gt)
  · rintro ⟨a, ha, hlive, hle, hexceeds⟩
    obtain ⟨hlt, -⟩ := List.getElem?_eq_some_iff.mp ha
    refine ⟨hlt, hlive, (totalBefore_succ ha hlive).symm ▸ hexceeds, fun j hj _ => ?_⟩
    exact (le_trans (totalBefore_mono hj) hle).not_gt

/-- The alternatives, with those that are excluded made weightless. -/
def silence {α : Type} [Scalar α] (outputs : List (Alternative α)) (excluded : List Nat) :
    List (Alternative α) :=
  outputs.mapIdx fun i a => if i ∈ excluded then { a with probability := 0 } else a

theorem total_silence : total (silence outputs excluded) [] = total outputs excluded := by
  induction outputs using List.reverseRecOn with
  | nil => rfl
  | append_singleton outputs a ih =>
    have hweightless : ({ a with probability := 0 } : Alternative ℝ).weight = 0 := max_self _
    have hconcat : silence (outputs ++ [a]) excluded = silence outputs excluded ++
        [if outputs.length ∈ excluded then { a with probability := 0 } else a] := by
      unfold silence
      rw [List.mapIdx_concat]
    rw [hconcat, total_concat, total_concat, if_neg List.not_mem_nil, ih]
    split
    · rw [hweightless, add_zero]
    · rfl

theorem totalBefore_silence :
    totalBefore (silence outputs excluded) [] k = totalBefore outputs excluded k := by
  have htake : (silence outputs excluded).take k = silence (outputs.take k) excluded := by
    unfold silence
    apply List.ext_getElem?
    intro i
    simp only [List.getElem?_take, List.getElem?_mapIdx]
    split <;> rfl
  unfold totalBefore
  rw [htake, total_silence]

/-- A walk stops among them where it stops among the live ones. -/
theorem stopsAt_silence (hroll : 0 ≤ roll) :
    StopsAt (silence outputs excluded) [] roll k ↔ StopsAt outputs excluded roll k := by
  constructor
  · intro h
    have hexceeds := h.exceeds
    have hfirst := h.first
    simp only [totalBefore_silence] at hexceeds hfirst
    refine ⟨by simpa [silence] using h.lt, ?_, hexceeds, fun j hj _ => hfirst j hj List.not_mem_nil⟩
    -- the sum does not rise at an excluded position
    intro hk
    rw [totalBefore_succ_excluded hk, ← totalBefore_silence] at hexceeds
    exact h.not_lt_totalBefore hroll.not_gt hexceeds
  · intro h
    refine ⟨by simpa [silence] using h.lt, List.not_mem_nil, ?_, ?_⟩
    · rw [totalBefore_silence]
      exact h.exceeds
    · intro j hj _ hexceeds
      rw [totalBefore_silence] at hexceeds
      exact h.not_lt_totalBefore hroll.not_gt (hexceeds.trans_le (totalBefore_mono hj))

variable [RandomSource ρ ℝ] {s : ρ}

/-- **An alternative is drawn by the numbers of one interval**, as long as
its weight over the total. -/
theorem select_eq_some_iff : (0 ≤ (RandomSource.nextUnit s).1 ∧ (RandomSource.nextUnit s).1 < 1 ∧
      (select outputs excluded s).1 = some k) ↔
    ∃ a, outputs[k]? = some a ∧ k ∉ excluded ∧ (RandomSource.nextUnit s).1 ∈
      Set.Ico (totalBefore outputs excluded k / total outputs excluded)
        ((totalBefore outputs excluded k + a.weight) / total outputs excluded) := by
  generalize hu : (RandomSource.nextUnit s).1 = u
  rcases le_or_gt (total outputs excluded) 0 with htotal | htotal
  · -- nothing is drawn, and the intervals are empty
    have hzero : total outputs excluded = 0 :=
      le_antisymm htotal (totalBefore_nonneg.trans (totalBefore_le_total (k := 0)))
    simp [select_of_total_le htotal, hzero]
  rw [select_of_not_total_le htotal.not_ge, hu, firstExceeding_eq_some_iff]
  constructor
  · rintro ⟨hnonneg, -, hstops⟩
    obtain ⟨a, ha, hlive, hle, hlt⟩ := (stopsAt_iff (mul_nonneg hnonneg htotal.le)).mp hstops
    exact ⟨a, ha, hlive, (div_le_iff₀ htotal).mpr hle, (lt_div_iff₀ htotal).mpr hlt⟩
  · rintro ⟨a, ha, hlive, hle, hlt⟩
    -- the interval lies in the unit interval, so the number does
    have hnonneg : 0 ≤ u := (div_nonneg totalBefore_nonneg htotal.le).trans hle
    have hone : (totalBefore outputs excluded k + a.weight) / total outputs excluded ≤ 1 := by
      rw [div_le_one htotal, ← totalBefore_succ ha hlive]
      exact totalBefore_le_total
    refine ⟨hnonneg, hlt.trans_le hone, ?_⟩
    apply (stopsAt_iff (mul_nonneg hnonneg htotal.le)).mpr
    exact ⟨a, ha, hlive, (div_le_iff₀ htotal).mp hle, (lt_div_iff₀ htotal).mp hlt⟩

/-- **Excluding alternatives is making them weightless.** -/
theorem select_silence (hu : 0 ≤ (RandomSource.nextUnit s).1) :
    select outputs excluded s = select (silence outputs excluded) [] s := by
  rcases le_or_gt (total outputs excluded) 0 with htotal | htotal
  · rw [select_of_total_le htotal, select_of_total_le (total_silence.trans_le htotal)]
  · have htotal' : ¬ total (silence outputs excluded) [] ≤ 0 := by
      rw [total_silence]
      exact htotal.not_ge
    rw [select_of_not_total_le htotal.not_ge, select_of_not_total_le htotal', total_silence]
    congr 1
    apply Option.ext
    intro k
    rw [firstExceeding_eq_some_iff, firstExceeding_eq_some_iff,
      stopsAt_silence (mul_nonneg hu htotal.le)]

end Exact

/-- **A draw shares out the total weight.**  Without any weight nothing is drawn; otherwise one
number is, and a roll below the total is met by the first live alternative after which more weight
lies than the roll, which has a positive probability.  Over the reals each live alternative is drawn
by the numbers of one interval, as long as its weight over the total, and excluding alternatives is
the same as making them weightless. -/
theorem select_shares :
    (∀ (ρ : Type) [RandomSource ρ Float32] (outputs : List (Alternative Float32))
        (excluded : List Nat) (s : ρ),
      (total outputs excluded ≤ 0 → select outputs excluded s = (none, s)) ∧
      (¬ total outputs excluded ≤ 0 →
        (select outputs excluded s).2 = (RandomSource.nextUnit s).2 ∧
        (0 ≤ (RandomSource.nextUnit s).1 * total outputs excluded →
          (RandomSource.nextUnit s).1 * total outputs excluded < total outputs excluded →
          ∃ k a, (select outputs excluded s).1 = some k ∧
            StopsAt outputs excluded ((RandomSource.nextUnit s).1 * total outputs excluded) k ∧
            outputs[k]? = some a ∧ 0 < a.probability))) ∧
    (∀ (ρ : Type) [RandomSource ρ ℝ] (outputs : List (Alternative ℝ)) (excluded : List Nat) (s : ρ),
      (∀ k, (0 ≤ (RandomSource.nextUnit s).1 ∧ (RandomSource.nextUnit s).1 < 1 ∧
          (select outputs excluded s).1 = some k) ↔
        ∃ a, outputs[k]? = some a ∧ k ∉ excluded ∧ (RandomSource.nextUnit s).1 ∈
          Set.Ico (totalBefore outputs excluded k / total outputs excluded)
            ((totalBefore outputs excluded k + a.weight) / total outputs excluded)) ∧
      (0 ≤ (RandomSource.nextUnit s).1 →
        select outputs excluded s = select (silence outputs excluded) [] s)) := by
  refine ⟨?_, fun _ _ _ _ _ => ⟨fun _ => select_eq_some_iff, select_silence⟩⟩
  intro ρ _ outputs excluded s
  refine ⟨select_of_total_le, fun htotal => ?_⟩
  rw [select_of_not_total_le htotal]
  refine ⟨rfl, fun hnonneg hlt => ?_⟩
  have hroll := Binary32.not_lt_zero hnonneg
  obtain ⟨k, hk⟩ := exists_firstExceeding hroll hlt
  obtain ⟨a, ha, hpos⟩ := pos_of_firstExceeding hroll hk
  exact ⟨k, a, hk, firstExceeding_eq_some_iff.mp hk, (mem_live ha).1, hpos⟩

/-- A source that gives the same number every time. -/
structure Steady (α : Type) where
  number : α

instance : RandomSource (Steady α) α where
  nextUnit s := (s.number, s)
  nextIndex _ s := (0, s)

/-- Three alternatives, of which the second has a negative weight. -/
def threeWays (α : Type) [Scalar α] : List (Alternative α) := [⟨1, "A"⟩, ⟨-1, "B"⟩, ⟨1, "C"⟩]

/-- With the first one excluded a half draws the third one, and as well if
its weight is taken away. -/
theorem select_shares_threeWays :
    (∃ a, (select (threeWays Float32) [0, 7] Halves.half).1 = some 2 ∧
      StopsAt (threeWays Float32) [0, 7] (Float32.ofBits 0x3f000000) 2 ∧
      (threeWays Float32)[2]? = some a ∧ 0 < a.probability) ∧
    select (threeWays ℝ) [0, 7] (Steady.mk (1 / 2 : ℝ)) =
      select (silence (threeWays ℝ) [0, 7]) [] (Steady.mk (1 / 2 : ℝ)) := by
  constructor
  · obtain ⟨k, a, hk, hstops, ha, hpos⟩ :=
      ((select_shares.1 Halves (threeWays Float32) [0, 7] Halves.half).2 (by decide +kernel)).2
        (by decide +kernel) (by decide +kernel)
    have htwo : (select (threeWays Float32) [0, 7] Halves.half).1 = some 2 := by decide +kernel
    obtain rfl : 2 = k := Option.some.inj (htwo.symm.trans hk)
    have hroll : (RandomSource.nextUnit Halves.half).1 * total (threeWays Float32) [0, 7] =
        Float32.ofBits 0x3f000000 := by decide +kernel
    rw [hroll] at hstops
    exact ⟨a, htwo, hstops, ha, hpos⟩
  · apply (select_shares.2 (Steady ℝ) (threeWays ℝ) [0, 7] ⟨1 / 2⟩).2
    show (0 : ℝ) ≤ 1 / 2
    norm_num

end Alternative

end SpatialGrammar
