/-
SpatialGrammar/Proofs/Rounding.lean

What rounding to a binary format comes to.

A number of a format is a significand times a power of two.  Rounding finds the power of two
just below what is rounded, which fixes the unit, and takes the nearest whole multiple of
the unit.  So the error is at most half a unit; a number that is a multiple of its unit
already is not changed; and whatever is nearer to a number of the format than half its unit
comes to that number, with the half itself going to the even significand.
-/
import Mathlib.Algebra.Order.Field.Power
import Mathlib.Tactic.FieldSimp
import Mathlib.Tactic.Linarith
import Mathlib.Tactic.Positivity
import Mathlib.Tactic.Ring
import SpatialGrammar.Numeric.Rounding

namespace SpatialGrammar

/-! ### The nearest whole number -/

section NearestEven

variable {num den : Nat}

/-- The nearest whole number is off by at most a half. -/
theorem abs_nearestEven_sub_le (num : Nat) (hden : 0 < den) :
    |(nearestEven num den : ℚ) - num / den| ≤ 1 / 2 := by
  have hpos : (0 : ℚ) < den := by exact_mod_cast hden
  have hdiv : (num : ℚ) = den * (num / den : Nat) + (num % den : Nat) := by
    exact_mod_cast (Nat.div_add_mod num den).symm
  have hmod : num % den < den := Nat.mod_lt num hden
  have hquotient : (num : ℚ) / den = (num / den : Nat) + (num % den : Nat) / den := by
    rw [div_eq_iff hpos.ne', add_mul, div_mul_cancel₀ _ hpos.ne', mul_comm, ← hdiv]
  have hrest : ∀ {a b : Nat}, a ≤ b → (a : ℚ) ≤ b := fun h => by exact_mod_cast h
  rw [hquotient, abs_le]
  unfold nearestEven
  dsimp only
  generalize num % den = r at hmod
  generalize num / den = q
  have hnonneg : (0 : ℚ) ≤ r / den := by positivity
  have hbelow : 2 * r ≤ den → (r : ℚ) / den ≤ 1 / 2 := by
    intro h
    have hcast : (2 * r : ℚ) ≤ den := by exact_mod_cast h
    rw [div_le_div_iff₀ hpos two_pos]
    linarith
  have habove : den ≤ 2 * r → (1 : ℚ) / 2 ≤ r / den := by
    intro h
    have hcast : (den : ℚ) ≤ 2 * r := by exact_mod_cast h
    rw [div_le_div_iff₀ two_pos hpos]
    linarith
  have hone : (r : ℚ) / den ≤ 1 := by
    rw [div_le_one hpos]
    exact_mod_cast hmod.le
  -- below the half and above it, and at it with an even or an odd number underneath
  split_ifs with hlt hgt heven
  · have := hbelow hlt.le
    constructor <;> linarith
  · have := habove hgt.le
    push_cast
    constructor <;> linarith
  · have := hbelow (not_lt.mp hgt)
    constructor <;> linarith
  · have := habove (not_lt.mp hlt)
    push_cast
    constructor <;> linarith

/-- What is nearer than a half to a whole number comes to it. -/
theorem nearestEven_eq_of_lt (hden : 0 < den) {n : Nat} (h : |(num : ℚ) / den - n| < 1 / 2) :
    nearestEven num den = n := by
  have hnear := abs_nearestEven_sub_le num hden
  have hdist : |((nearestEven num den : Int) - (n : Int) : ℚ)| < 1 := by
    calc |((nearestEven num den : Int) - (n : Int) : ℚ)|
        ≤ |(nearestEven num den : ℚ) - num / den| + |(num : ℚ) / den - n| := by
          simpa using abs_sub_le (nearestEven num den : ℚ) (num / den) n
      _ < 1 := by linarith
  have hzero : |(nearestEven num den : Int) - (n : Int)| < 1 := by exact_mod_cast hdist
  have := Int.abs_lt_one_iff.mp hzero
  omega

theorem nearestEven_of_half {n : Nat} (hden : 0 < den) (h : 2 * num = 2 * (n * den) + den) :
    nearestEven num den = if n % 2 = 0 then n else n + 1 := by
  have hdiv : num / den = n := Nat.div_eq_of_lt_le (by omega) (by rw [Nat.succ_mul]; omega)
  have hmod : 2 * (num % den) = den := by
    have := Nat.div_add_mod num den
    rw [hdiv, Nat.mul_comm] at this
    omega
  simp [nearestEven, hdiv, hmod]

/-- A half goes to the even neighbour. -/
theorem nearestEven_eq_of_even (hden : 0 < den) {n : Nat} (heven : n % 2 = 0)
    (h : |(num : ℚ) / den - n| ≤ 1 / 2) : nearestEven num den = n := by
  rcases h.lt_or_eq with hlt | heq
  · exact nearestEven_eq_of_lt hden hlt
  have hpos : (den : ℚ) ≠ 0 := by exact_mod_cast hden.ne'
  rcases (abs_eq (by norm_num)).mp heq with habove | hbelow
  · have hhalf : 2 * num = 2 * (n * den) + den := by
      field_simp at habove
      have hcast : (2 * num : ℚ) = 2 * (n * den) + den := by linarith
      exact_mod_cast hcast
    rw [nearestEven_of_half hden hhalf, if_pos heven]
  · have hhalf : 2 * num + den = 2 * (n * den) := by
      field_simp at hbelow
      have hcast : (2 * num + den : ℚ) = 2 * (n * den) := by linarith
      exact_mod_cast hcast
    -- what lies half below is rounded up, as the number underneath is odd
    obtain ⟨k, rfl⟩ : ∃ k, n = k + 1 := by
      refine ⟨n - 1, (Nat.succ_pred_eq_of_ne_zero ?_).symm⟩
      rintro rfl
      omega
    have hmul : (k + 1) * den = k * den + den := Nat.succ_mul k den
    rw [nearestEven_of_half (n := k) hden (by omega), if_neg (by omega)]

end NearestEven

/-! ### The power of two below a quotient -/

section Magnitude

variable {num den : Nat}

theorem log2_le (hnum : 0 < num) : (2 : ℚ) ^ (num.log2 : Int) ≤ num := by
  rw [zpow_natCast]
  exact_mod_cast Nat.log2_self_le hnum.ne'

theorem lt_log2 (num : Nat) : (num : ℚ) < 2 ^ ((num.log2 : Int) + 1) := by
  rw [show (num.log2 : Int) + 1 = ((num.log2 + 1 : Nat) : Int) by push_cast; rfl, zpow_natCast]
  exact_mod_cast Nat.lt_log2_self

/-- A quotient is compared with a power of two without dividing. -/
theorem le_div_iff_scaled (hden : 0 < den) (k : Int) :
    (2 : ℚ) ^ k ≤ num / den ↔
      if 0 ≤ k then den * 2 ^ k.toNat ≤ num else den ≤ num * 2 ^ (-k).toNat := by
  have hpos : (0 : ℚ) < den := by exact_mod_cast hden
  rw [le_div_iff₀ hpos]
  split
  next hk =>
    obtain ⟨n, rfl⟩ := Int.eq_ofNat_of_zero_le hk
    rw [zpow_natCast, Int.toNat_natCast, mul_comm]
    exact_mod_cast Iff.rfl
  next hk =>
    obtain ⟨n, hn⟩ : ∃ n : Nat, (-k).toNat = n := ⟨_, rfl⟩
    obtain rfl : k = -(n : Int) := by omega
    rw [zpow_neg, zpow_natCast, hn, inv_mul_le_iff₀ (by positivity), mul_comm]
    exact_mod_cast Iff.rfl

/-- **The magnitude of a quotient is the power of two below it.** -/
theorem BinaryFormat.magnitude_spec (hnum : 0 < num) (hden : 0 < den) :
    (2 : ℚ) ^ magnitude num den ≤ num / den ∧ (num : ℚ) / den < 2 ^ (magnitude num den + 1) := by
  have hpos : (0 : ℚ) < den := by exact_mod_cast hden
  have hbelow : (2 : ℚ) ^ ((num.log2 : Int) - den.log2 - 1) ≤ num / den := by
    rw [le_div_iff₀ hpos]
    calc (2 : ℚ) ^ ((num.log2 : Int) - den.log2 - 1) * den
        ≤ 2 ^ ((num.log2 : Int) - den.log2 - 1) * 2 ^ ((den.log2 : Int) + 1) := by
          gcongr
          exact (lt_log2 den).le
      _ = 2 ^ (num.log2 : Int) := by
          rw [← zpow_add₀ two_ne_zero]
          congr 1
          ring
      _ ≤ num := log2_le hnum
  have habove : (num : ℚ) / den < 2 ^ ((num.log2 : Int) - den.log2 + 1) := by
    rw [div_lt_iff₀ hpos]
    calc (num : ℚ) < 2 ^ ((num.log2 : Int) + 1) := lt_log2 num
      _ = 2 ^ ((num.log2 : Int) - den.log2 + 1) * 2 ^ (den.log2 : Int) := by
          rw [← zpow_add₀ two_ne_zero]
          congr 1
          ring
      _ ≤ 2 ^ ((num.log2 : Int) - den.log2 + 1) * den := by
          gcongr
          exact log2_le hden
  -- the difference of the logarithms is the magnitude or one more
  by_cases hfits : (2 : ℚ) ^ ((num.log2 : Int) - den.log2) ≤ num / den
  · have heq : magnitude num den = (num.log2 : Int) - den.log2 :=
      if_pos ((le_div_iff_scaled hden _).mp hfits)
    rw [heq]
    exact ⟨hfits, habove⟩
  · have heq : magnitude num den = (num.log2 : Int) - den.log2 - 1 :=
      if_neg (mt (le_div_iff_scaled hden _).mpr hfits)
    rw [heq, sub_add_cancel]
    exact ⟨hbelow, not_le.mp hfits⟩

end Magnitude

/-! ### Numbers of a format -/

namespace BinaryFormat

/-- What a significand and an exponent are worth. -/
def value (a : Nat × Int) : ℚ := a.1 * 2 ^ a.2

/-- The exponent of the unit to a whole multiple of which a quotient is rounded. -/
def unit (f : BinaryFormat) (num den : Nat) : Int :=
  max f.least (magnitude num den - ((f.precision : Int) - 1))

/-- The whole number of units `2 ^ u` nearest to a quotient. -/
def units (num den : Nat) (u : Int) : Nat :=
  if 0 ≤ u then nearestEven num (den * Nat.pow 2 u.toNat)
  else nearestEven (num * Nat.pow 2 (-u).toNat) den

section Units

variable {num den : Nat}

/-- The whole number of units is the whole number nearest to a quotient of whole numbers. -/
theorem exists_units_eq (num : Nat) (hden : 0 < den) (u : Int) : ∃ num' den' : Nat, 0 < den' ∧
    (num' : ℚ) / den' = num / den / 2 ^ u ∧ units num den u = nearestEven num' den' := by
  unfold units
  split
  next hu =>
    obtain ⟨n, rfl⟩ := Int.eq_ofNat_of_zero_le hu
    refine ⟨num, den * 2 ^ n, by positivity, ?_, rfl⟩
    push_cast
    rw [zpow_natCast, div_div]
  next hu =>
    obtain ⟨n, hn⟩ : ∃ n : Nat, (-u).toNat = n := ⟨_, rfl⟩
    obtain rfl : u = -(n : Int) := by omega
    refine ⟨num * 2 ^ n, den, hden, ?_, by rw [hn]; rfl⟩
    push_cast
    rw [zpow_neg, zpow_natCast, div_inv_eq_mul]
    ring

theorem abs_units_sub_le (num : Nat) (hden : 0 < den) (u : Int) :
    |(units num den u : ℚ) - num / den / 2 ^ u| ≤ 1 / 2 := by
  obtain ⟨num', den', hden', hquotient, heq⟩ := exists_units_eq num hden u
  rw [heq, ← hquotient]
  exact abs_nearestEven_sub_le num' hden'

theorem units_eq_of_lt (hden : 0 < den) {u : Int} {n : Nat}
    (h : |(num : ℚ) / den / 2 ^ u - n| < 1 / 2) : units num den u = n := by
  obtain ⟨num', den', hden', hquotient, heq⟩ := exists_units_eq num hden u
  rw [heq]
  exact nearestEven_eq_of_lt hden' (by rwa [hquotient])

theorem units_eq_of_even (hden : 0 < den) {u : Int} {n : Nat} (heven : n % 2 = 0)
    (h : |(num : ℚ) / den / 2 ^ u - n| ≤ 1 / 2) : units num den u = n := by
  obtain ⟨num', den', hden', hquotient, heq⟩ := exists_units_eq num hden u
  rw [heq]
  exact nearestEven_eq_of_even hden' heven (by rwa [hquotient])

end Units

/-! ### Rounding -/

section Round

variable {f : BinaryFormat} {num den : Nat}

theorem round_eq (f : BinaryFormat) (hnum : 0 < num) : f.round num den =
    let a := if units num den (f.unit num den) = 2 ^ f.precision then
        (2 ^ (f.precision - 1), f.unit num den + 1)
      else (units num den (f.unit num den), f.unit num den)
    if f.greatest < a.2 then none else some a :=
  if_neg hnum.ne'

/-- A quotient is rounded to its whole number of units, if that is a significand. -/
theorem round_eq_some (hnum : 0 < num) {m : Nat} {e : Int} (hunit : f.unit num den = e)
    (hunits : units num den e = m) (hm : m < 2 ^ f.precision) (he : e ≤ f.greatest) :
    f.round num den = some (m, e) := by
  rw [round_eq f hnum, hunit, hunits, if_neg hm.ne]
  exact if_neg (not_lt.mpr he)

/-- **What rounding gives is the whole number of units, whatever becomes of the significand.** -/
theorem exists_round (hprecision : 0 < f.precision) (hnum : 0 < num)
    (hunit : f.unit num den < f.greatest) : ∃ a, f.round num den = some a ∧
      value a = units num den (f.unit num den) * 2 ^ f.unit num den := by
  rw [round_eq f hnum]
  split
  next hcarry =>
    refine ⟨_, if_neg (not_lt.mpr hunit), ?_⟩
    rw [hcarry]
    unfold value
    push_cast
    rw [zpow_add_one₀ two_ne_zero, ← mul_assoc, mul_right_comm, ← pow_succ,
      Nat.sub_add_cancel hprecision]
  next => exact ⟨_, if_neg (not_lt.mpr hunit.le), rfl⟩

theorem unit_lt_greatest (hnum : 0 < num) (hden : 0 < den) (hformat : f.least < f.greatest)
    (hhigh : (num : ℚ) / den < 2 ^ (f.greatest + f.precision - 1)) :
    f.unit num den < f.greatest := by
  have hlt := (zpow_lt_zpow_iff_right₀ (one_lt_two (α := ℚ))).mp
    ((magnitude_spec hnum hden).1.trans_lt hhigh)
  unfold unit
  omega

/-- **In the normal range rounding changes a quotient by less than a unit in its last place.** -/
theorem exists_round_relative (hprecision : 0 < f.precision) (hformat : f.least < f.greatest)
    (hnum : 0 < num) (hden : 0 < den) (hlow : (2 : ℚ) ^ (f.least + f.precision - 1) ≤ num / den)
    (hhigh : (num : ℚ) / den < 2 ^ (f.greatest + f.precision - 1)) :
    ∃ a, f.round num den = some a ∧
      |value a - num / den| ≤ num / den * 2 ^ (-(f.precision : Int)) := by
  obtain ⟨a, ha, hvalue⟩ :=
    exists_round hprecision hnum (unit_lt_greatest hnum hden hformat hhigh)
  refine ⟨a, ha, ?_⟩
  have hunit : f.unit num den = magnitude num den - ((f.precision : Int) - 1) := by
    have hlt := (zpow_lt_zpow_iff_right₀ (one_lt_two (α := ℚ))).mp
      (hlow.trans_lt (magnitude_spec hnum hden).2)
    unfold unit
    omega
  have hpos : (0 : ℚ) < 2 ^ f.unit num den := by positivity
  have herror := abs_units_sub_le num hden (f.unit num den)
  calc |value a - num / den|
      = |(units num den (f.unit num den) : ℚ) - num / den / 2 ^ f.unit num den| *
          2 ^ f.unit num den := by
        rw [hvalue, ← abs_of_pos hpos, ← abs_mul, sub_mul, abs_of_pos hpos,
          div_mul_cancel₀ _ hpos.ne']
    _ ≤ 1 / 2 * 2 ^ f.unit num den := by gcongr
    _ = 2 ^ magnitude num den * 2 ^ (-(f.precision : Int)) := by
        rw [hunit, one_div, ← zpow_neg_one, ← zpow_add₀ two_ne_zero, ← zpow_add₀ two_ne_zero]
        congr 1
        ring
    _ ≤ num / den * 2 ^ (-(f.precision : Int)) := by
        gcongr
        exact (magnitude_spec hnum hden).1

/-- **What a format can express is not changed by rounding.** -/
theorem exists_round_exact (hprecision : 0 < f.precision) (hformat : f.least < f.greatest)
    (hnum : 0 < num) (hden : 0 < den) {m : Nat} {t : Int} (hm : m < 2 ^ f.precision)
    (ht : f.least ≤ t) (hquotient : (num : ℚ) / den = m * 2 ^ t)
    (hhigh : (num : ℚ) / den < 2 ^ (f.greatest + f.precision - 1)) :
    ∃ a, f.round num den = some a ∧ value a = num / den := by
  obtain ⟨a, ha, hvalue⟩ :=
    exists_round hprecision hnum (unit_lt_greatest hnum hden hformat hhigh)
  refine ⟨a, ha, ?_⟩
  have hunit : f.unit num den ≤ t := by
    have hlt : (num : ℚ) / den < 2 ^ ((f.precision : Int) + t) := by
      rw [hquotient, zpow_add₀ two_ne_zero, zpow_natCast]
      gcongr
      exact_mod_cast hm
    have := (zpow_lt_zpow_iff_right₀ (one_lt_two (α := ℚ))).mp
      ((magnitude_spec hnum hden).1.trans_lt hlt)
    unfold unit
    omega
  obtain ⟨n, hn⟩ : ∃ n : Nat, t - f.unit num den = n := Int.eq_ofNat_of_zero_le (by omega)
  have hscaled : (num : ℚ) / den / 2 ^ f.unit num den = (m * 2 ^ n : Nat) := by
    rw [hquotient, mul_div_assoc, ← zpow_sub₀ two_ne_zero, hn, zpow_natCast]
    push_cast
    rfl
  have hunits : units num den (f.unit num den) = m * 2 ^ n :=
    units_eq_of_lt hden (by rw [hscaled]; norm_num)
  rw [hvalue, hunits, ← hscaled, div_mul_cancel₀ _ (by positivity)]

/-- A significand and an exponent as a format has them: of full length unless the exponent is the
least. -/
structure Canonical (f : BinaryFormat) (m : Nat) (e : Int) : Prop where
  pos : 0 < m
  lt : m < 2 ^ f.precision
  least_le : f.least ≤ e
  le_greatest : e ≤ f.greatest
  full : e = f.least ∨ 2 ^ (f.precision - 1) ≤ m

/-- **What is nearer to a number of the format than half its unit is rounded to it, and so is what
lies half a unit away if its significand is even.** Where the unit becomes smaller, just below a
power of two, this says nothing. -/
theorem round_of_near (hprecision : 0 < f.precision) (hnum : 0 < num) (hden : 0 < den) {m : Nat}
    {e : Int} (h : f.Canonical m e) (hpower : e = f.least ∨ m ≠ 2 ^ (f.precision - 1))
    (hle : |(num : ℚ) / den / 2 ^ e - m| ≤ 1 / 2)
    (hodd : m % 2 = 0 ∨ |(num : ℚ) / den / 2 ^ e - m| < 1 / 2) :
    f.round num den = some (m, e) := by
  have hunits : units num den e = m := by
    rcases hodd with heven | hlt
    · exact units_eq_of_even hden heven hle
    · exact units_eq_of_lt hden hlt
  refine round_eq_some hnum ?_ hunits h.lt h.le_greatest
  obtain ⟨hmin, hmax⟩ := abs_le.mp hle
  have hpos : (0 : ℚ) < 2 ^ e := by positivity
  have hbelow : (num : ℚ) / den < 2 ^ (e + f.precision) := by
    have hm : (m : ℚ) + 1 ≤ 2 ^ f.precision := by exact_mod_cast h.lt
    rw [zpow_add₀ two_ne_zero, zpow_natCast, mul_comm, ← div_lt_iff₀ hpos]
    linarith
  have hupper := (zpow_lt_zpow_iff_right₀ (one_lt_two (α := ℚ))).mp
    ((magnitude_spec hnum hden).1.trans_lt hbelow)
  have hleast := h.least_le
  unfold unit
  rcases hpower with hleast | hne
  · omega
  rcases h.full with hleast | hfull
  · omega
  · -- a significand of full length is not the first one, so half a unit less is no shorter
    have habove : (2 : ℚ) ^ (e + (f.precision - 1 : Nat)) ≤ num / den := by
      have hm : (2 : ℚ) ^ (f.precision - 1) + 1 ≤ m := by
        exact_mod_cast lt_of_le_of_ne hfull hne.symm
      rw [zpow_add₀ two_ne_zero, zpow_natCast, mul_comm, ← le_div_iff₀ hpos]
      linarith
    have hlower := (zpow_lt_zpow_iff_right₀ (one_lt_two (α := ℚ))).mp
      (habove.trans_lt (magnitude_spec hnum hden).2)
    omega

end Round

end BinaryFormat

end SpatialGrammar
