/-
SpatialGrammar/Proofs/StepwiseRounding.lean

What a decimal comes to when it is rounded at every step.

For a decimal whose digits fit a significand in double precision and whose power of ten is
in reach, three things are rounded: the digits, which are not changed; the power of ten,
which is not changed either up to `10 ^ 22`; and the product or quotient of the two.  Each
rounding is off by at most one part in `2 ^ 53`, so what comes out is off by no more than
one part in `2 ^ 51`; and it is not off at all if the power is exact and the decimal is
a number that double precision has.
-/
import SpatialGrammar.Decimal.Stepwise
import SpatialGrammar.Proofs.Rounding

namespace SpatialGrammar

open BinaryFormat (value)

/-! ### Scaled quotients -/

namespace BinaryFormat

theorem value_pos {a : Nat × Int} (h : 0 < a.1) : 0 < value a := by
  have : (0 : ℚ) < a.1 := by exact_mod_cast h
  unfold value
  positivity

theorem pos_of_value_pos {a : Nat × Int} (h : 0 < value a) : 0 < a.1 := by
  rw [Nat.pos_iff_ne_zero]
  intro hzero
  simp [value, hzero] at h

variable {f : BinaryFormat}

/-- A quotient times a power of two is rounded as the quotient of whole numbers that it is. -/
theorem exists_roundScaled_eq {num den : Nat} (hnum : 0 < num) (hden : 0 < den) (k : Int) :
    ∃ num' den' : Nat, 0 < num' ∧ 0 < den' ∧ (num' : ℚ) / den' = num / den * 2 ^ k ∧
      f.roundScaled num den k = f.round num' den' := by
  unfold roundScaled
  split
  next hk =>
    obtain ⟨n, rfl⟩ := Int.eq_ofNat_of_zero_le hk
    refine ⟨num * 2 ^ n, den, by positivity, hden, ?_, rfl⟩
    push_cast
    rw [zpow_natCast]
    ring
  next hk =>
    obtain ⟨n, hn⟩ : ∃ n : Nat, (-k).toNat = n := ⟨_, rfl⟩
    obtain rfl : k = -(n : Int) := by omega
    refine ⟨num, den * 2 ^ n, hnum, by positivity, ?_, by rw [hn]; rfl⟩
    push_cast
    rw [zpow_neg, zpow_natCast, ← div_div, div_eq_mul_inv]

/-- A product is rounded as a quotient of whole numbers. -/
theorem exists_multiply_eq {a b : Nat × Int} (ha : 0 < a.1) (hb : 0 < b.1) :
    ∃ num den : Nat, 0 < num ∧ 0 < den ∧ (num : ℚ) / den = value a * value b ∧
      f.multiply a b = f.round num den := by
  obtain ⟨num, den, hnum, hden, hquotient, hround⟩ :=
    exists_roundScaled_eq (f := f) (Nat.mul_pos ha hb) Nat.one_pos (a.2 + b.2)
  refine ⟨num, den, hnum, hden, ?_, hround⟩
  rw [hquotient, zpow_add₀ two_ne_zero]
  unfold value
  push_cast
  ring

/-- A quotient is rounded as a quotient of whole numbers. -/
theorem exists_divide_eq {a b : Nat × Int} (ha : 0 < a.1) (hb : 0 < b.1) :
    ∃ num den : Nat, 0 < num ∧ 0 < den ∧ (num : ℚ) / den = value a / value b ∧
      f.divide a b = f.round num den := by
  obtain ⟨num, den, hnum, hden, hquotient, hround⟩ :=
    exists_roundScaled_eq (f := f) ha hb (a.2 - b.2)
  refine ⟨num, den, hnum, hden, ?_, hround⟩
  rw [hquotient, zpow_sub₀ two_ne_zero]
  unfold value
  have hbq : (b.1 : ℚ) ≠ 0 := by exact_mod_cast hb.ne'
  field_simp

end BinaryFormat

namespace Decimal

/-- The quotients considered here, which are far from the ends of double precision. -/
def InReach (q : ℚ) : Prop := (2 : ℚ) ^ (-250 : Int) ≤ q ∧ q ≤ 2 ^ (250 : Int)

theorem InReach.normal {q : ℚ} (h : InReach q) :
    (2 : ℚ) ^ (-1074 + (53 : Nat) - 1 : Int) ≤ q ∧ q < 2 ^ (971 + (53 : Nat) - 1 : Int) :=
  ⟨(zpow_le_zpow_right₀ one_le_two (by norm_num)).trans h.1,
    h.2.trans_lt (zpow_lt_zpow_right₀ one_lt_two (by norm_num))⟩

section Double

variable {num den : Nat}

/-- In double precision a rounding is off by at most one part in `2 ^ 53`. -/
theorem exists_double_relative (hnum : 0 < num) (hden : 0 < den) (h : InReach ((num : ℚ) / den)) :
    ∃ a, BinaryFormat.double.round num den = some a ∧
      |value a - num / den| ≤ num / den * 2 ^ (-53 : Int) :=
  BinaryFormat.exists_round_relative (by decide) (by decide) hnum hden h.normal.1 h.normal.2

/-- What double precision has is not changed. -/
theorem exists_double_exact (hnum : 0 < num) (hden : 0 < den) (h : InReach ((num : ℚ) / den))
    {m : Nat} {t : Int} (hm : m < 2 ^ 53) (ht : -1074 ≤ t) (hq : (num : ℚ) / den = m * 2 ^ t) :
    ∃ a, BinaryFormat.double.round num den = some a ∧ value a = num / den :=
  BinaryFormat.exists_round_exact (by decide) (by decide) hnum hden hm ht hq h.normal.2

end Double

/-! ### Powers of ten -/

theorem inReach_power {n : Nat} (hn : n ≤ 45) : InReach ((10 ^ n : Nat) / (1 : Nat) : ℚ) := by
  have hone : (1 : ℚ) ≤ 10 ^ n := one_le_pow₀ (by norm_num)
  have hlarge : (10 : ℚ) ^ n ≤ 10 ^ 45 := pow_le_pow_right₀ (by norm_num) hn
  push_cast
  rw [div_one]
  constructor
  · exact (zpow_le_one_of_nonpos₀ one_le_two (by norm_num)).trans hone
  · exact hlarge.trans (by norm_num)

/-- **A power of ten in reach is rounded by at most one part in `2 ^ 53`, and up to `10 ^ 22` not at
all.** -/
theorem powerOfTen_spec {n : Nat} (hn : n ≤ 45) :
    |value (powerOfTen n) - 10 ^ n| ≤ 10 ^ n * 2 ^ (-53 : Int) ∧
      (n ≤ 22 → value (powerOfTen n) = 10 ^ n) := by
  have hpos : 0 < 10 ^ n := by positivity
  constructor
  · obtain ⟨a, ha, herror⟩ := exists_double_relative hpos Nat.one_pos (inReach_power hn)
    have heq : powerOfTen n = a := by
      rw [powerOfTen, Nat.pow_eq, ha]
      rfl
    rw [heq]
    simpa using herror
  · intro hsmall
    have hfive : (5 : Nat) ^ n < 2 ^ 53 :=
      (Nat.pow_le_pow_right (by decide) hsmall).trans_lt (by norm_num)
    have hparts : ((10 ^ n : Nat) : ℚ) / (1 : Nat) = (5 ^ n : Nat) * 2 ^ (n : Int) := by
      push_cast
      rw [div_one, zpow_natCast, ← mul_pow]
      norm_num
    obtain ⟨a, ha, hvalue⟩ := exists_double_exact hpos Nat.one_pos (inReach_power hn) hfive
      (by omega) hparts
    have heq : powerOfTen n = a := by
      rw [powerOfTen, Nat.pow_eq, ha]
      rfl
    rw [heq, hvalue]
    simp

/-! ### Both steps -/

/-- Two roundings are off by at most one part in `2 ^ 51`. -/
theorem abs_sub_le_of_twice {q q' y : ℚ} (hq : 0 < q) (hq' : |q' - q| ≤ q * 2 ^ (-52 : Int))
    (hy : |y - q'| ≤ q' * 2 ^ (-53 : Int)) : |y - q| ≤ q * 2 ^ (-51 : Int) := by
  obtain ⟨h₁, h₂⟩ := abs_le.mp hq'
  obtain ⟨h₃, h₄⟩ := abs_le.mp hy
  norm_num at h₁ h₂ h₃ h₄ ⊢
  rw [abs_le]
  constructor <;> linarith

/-- What is near a decimal with few digits and a small power of ten is in reach. -/
theorem InReach.of_near {d : Nat} {k : Int} (hd : 0 < d) (hd' : d < 2 ^ 53) (hk : -45 ≤ k)
    (hk' : k ≤ 45) {q : ℚ} (h : |q - d * 10 ^ k| ≤ d * 10 ^ k * 2 ^ (-52 : Int)) : InReach q := by
  have hdq : (1 : ℚ) ≤ d := by exact_mod_cast hd
  have hdq' : (d : ℚ) ≤ 2 ^ 53 := by exact_mod_cast hd'.le
  have hlow : (10 : ℚ) ^ (-45 : Int) ≤ 10 ^ k := zpow_le_zpow_right₀ (by norm_num) hk
  have hhigh : (10 : ℚ) ^ k ≤ 10 ^ (45 : Int) := zpow_le_zpow_right₀ (by norm_num) hk'
  have hleast : (1 : ℚ) * 10 ^ (-45 : Int) ≤ d * 10 ^ k := by gcongr
  have hgreatest : (d : ℚ) * 10 ^ k ≤ 2 ^ 53 * 10 ^ (45 : Int) := by gcongr
  obtain ⟨h₁, h₂⟩ := abs_le.mp h
  norm_num at hleast hgreatest h₁ h₂
  constructor
  · norm_num
    linarith
  · norm_num
    linarith

/-- The quotient by a rounded number is off by little more than the number. -/
theorem abs_div_sub_le {p t : ℚ} (ht : 0 < t) (h : |p - t| ≤ t * 2 ^ (-53 : Int)) {a : ℚ}
    (ha : 0 < a) : |a / p - a / t| ≤ a / t * 2 ^ (-52 : Int) := by
  obtain ⟨h₁, h₂⟩ := abs_le.mp h
  norm_num at h₁ h₂
  have hp : 0 < p := by linarith
  have hsplit : a / p - a / t = a / t * ((t - p) / p) := by
    field_simp
  rw [hsplit, abs_mul, abs_of_pos (by positivity)]
  gcongr
  rw [abs_le, le_div_iff₀ hp, div_le_iff₀ hp]
  norm_num
  constructor <;> linarith

/-- The second rounding, of a quotient that the first one may have changed. -/
theorem exists_double_near {num den : Nat} {q : ℚ} (hnum : 0 < num) (hden : 0 < den)
    (hreach : InReach ((num : ℚ) / den)) (hq : 0 < q)
    (hnear : |(num : ℚ) / den - q| ≤ q * 2 ^ (-52 : Int)) :
    ∃ y, BinaryFormat.double.round num den = some y ∧ |value y - q| ≤ q * 2 ^ (-51 : Int) ∧
      ∀ (m : Nat) (t : Int), (num : ℚ) / den = q → m < 2 ^ 53 → -1074 ≤ t → q = m * 2 ^ t →
        value y = q := by
  obtain ⟨y, hy, herror⟩ := exists_double_relative hnum hden hreach
  refine ⟨y, hy, abs_sub_le_of_twice hq hnear herror, fun m t hsame hm ht hparts => ?_⟩
  obtain ⟨z, hz, hvalue⟩ := exists_double_exact hnum hden hreach hm ht (hsame.trans hparts)
  rw [Option.some.inj (hy.symm.trans hz), hvalue, hsame]

section ToDouble

variable {d : Nat}

/-- Digits that fit a significand are not changed. -/
theorem exists_round_digits (hd : 0 < d) (hd' : d < 2 ^ 53) :
    ∃ a, BinaryFormat.double.round d 1 = some a ∧ value a = d ∧ 0 < a.1 := by
  have hpos : (0 : ℚ) < d := by exact_mod_cast hd
  have hreach : InReach ((d : ℚ) / (1 : Nat)) :=
    .of_near (k := 0) hd hd' (by decide) (by decide) (by simp)
  obtain ⟨a, ha, hvalue⟩ := exists_double_exact hd Nat.one_pos hreach (t := 0) hd' (by decide)
    (by simp)
  rw [Nat.cast_one, div_one] at hvalue
  exact ⟨a, ha, hvalue, BinaryFormat.pos_of_value_pos (hvalue ▸ hpos)⟩

/-- A number near a power of ten in reach is positive, and so is its significand. -/
theorem powerOfTen_pos {n : Nat} (hn : n ≤ 45) : 0 < (powerOfTen n).1 := by
  obtain ⟨herror, -⟩ := powerOfTen_spec hn
  have hten : (0 : ℚ) < 10 ^ n := by positivity
  have hlow := (abs_le.mp herror).1
  norm_num at hlow
  exact BinaryFormat.pos_of_value_pos (by linarith)

/-- Scaling by a power of ten in reach rounds a quotient that is the number scaled, but for the
rounding of the power. -/
theorem exists_scale_eq {a : Nat × Int} (ha : 0 < a.1) {k : Int} (hk : -45 ≤ k) (hk' : k ≤ 45) :
    ∃ num den : Nat, 0 < num ∧ 0 < den ∧ scale a k = BinaryFormat.double.round num den ∧
      |(num : ℚ) / den - value a * 10 ^ k| ≤ value a * 10 ^ k * 2 ^ (-52 : Int) ∧
      (-22 ≤ k → k ≤ 22 → (num : ℚ) / den = value a * 10 ^ k) := by
  have hvalue : 0 < value a := BinaryFormat.value_pos ha
  rw [scale, if_neg ha.ne']
  by_cases hnonneg : 0 ≤ k
  · -- the error of the power is the error of the product
    obtain ⟨n, rfl⟩ := Int.eq_ofNat_of_zero_le hnonneg
    have hn : n ≤ 45 := by omega
    obtain ⟨herror, hexact⟩ := powerOfTen_spec hn
    rw [if_pos hnonneg, if_neg (by simp [greatestPower]; omega), Int.toNat_natCast, zpow_natCast]
    obtain ⟨num, den, hnum, hden, hquotient, hround⟩ :=
      BinaryFormat.exists_multiply_eq (f := .double) ha (powerOfTen_pos hn)
    refine ⟨num, den, hnum, hden, hround, ?_, fun _ hsmall => by rw [hquotient, hexact (by omega)]⟩
    rw [hquotient, ← mul_sub, abs_mul, abs_of_pos hvalue, mul_assoc]
    gcongr
    exact herror.trans (by gcongr <;> norm_num)
  · -- and almost that of the quotient
    obtain ⟨n, rfl⟩ : ∃ n : Nat, k = -(n : Int) := ⟨(-k).toNat, by omega⟩
    have hn : n ≤ 45 := by omega
    obtain ⟨herror, hexact⟩ := powerOfTen_spec hn
    rw [if_neg hnonneg, if_pos (by simp [greatestPower]; omega), neg_neg, Int.toNat_natCast,
      zpow_neg, zpow_natCast, ← div_eq_mul_inv]
    obtain ⟨num, den, hnum, hden, hquotient, hround⟩ :=
      BinaryFormat.exists_divide_eq (f := .double) ha (powerOfTen_pos hn)
    refine ⟨num, den, hnum, hden, hround, ?_, fun hsmall _ => by rw [hquotient, hexact (by omega)]⟩
    rw [hquotient]
    exact abs_div_sub_le (by positivity) herror hvalue

/-- **What a decimal comes to when it is rounded at every step is off by at most one part in
`2 ^ 51`, and not at all if nothing has to be rounded.** -/
theorem exists_toDouble? (negative : Bool) (hd : 0 < d) (hd' : d < 2 ^ 53) {k : Int}
    (hk : -45 ≤ k) (hk' : k ≤ 45) : ∃ y, toDouble? ⟨negative, d, k⟩ = some y ∧
      |value y - d * 10 ^ k| ≤ d * 10 ^ k * 2 ^ (-51 : Int) ∧
      ∀ (m : Nat) (t : Int), -22 ≤ k → k ≤ 22 → m < 2 ^ 53 → -1074 ≤ t →
        (d : ℚ) * 10 ^ k = m * 2 ^ t → value y = d * 10 ^ k := by
  have hdq : (0 : ℚ) < d := by exact_mod_cast hd
  obtain ⟨a, ha, hvalue, hpos⟩ := exists_round_digits hd hd'
  obtain ⟨num, den, hnum, hden, hscale, hnear, hexact⟩ := exists_scale_eq hpos hk hk'
  rw [hvalue] at hnear hexact
  obtain ⟨y, hy, hclose, hsame⟩ := exists_double_near hnum hden
    (.of_near hd hd' hk hk' hnear) (by positivity) hnear
  refine ⟨y, by rw [toDouble?, ha, Option.bind_some, hscale, hy], hclose, ?_⟩
  exact fun m t hlow hhigh => hsame m t (hexact hlow hhigh)

/-- A whole number of 64 bits is within double precision. -/
theorem toDouble?_whole (negative : Bool) (hd : d < 2 ^ 64) :
    (toDouble? ⟨negative, d, 0⟩).isSome := by
  rcases Nat.eq_zero_or_pos d with rfl | hpos
  · simp [toDouble?, BinaryFormat.round, scale]
  have hreach : ∀ {q : ℚ}, 1 / 2 ≤ q → q ≤ 2 ^ 65 → InReach q := by
    intro q hlow hhigh
    constructor
    · norm_num
      linarith
    · norm_num
      linarith
  have hdq : (1 : ℚ) ≤ d := by exact_mod_cast hpos
  have hdq' : (d : ℚ) ≤ 2 ^ 64 := by exact_mod_cast hd.le
  obtain ⟨a, ha, herror⟩ := exists_double_relative hpos Nat.one_pos
    (hreach (by rw [Nat.cast_one]; linarith) (by rw [Nat.cast_one]; linarith))
  obtain ⟨hlow, hhigh⟩ := abs_le.mp herror
  norm_num at hlow hhigh
  have ha' : 0 < a.1 := BinaryFormat.pos_of_value_pos (by linarith)
  obtain ⟨num, den, hnum, hden, hscale, -, hexact⟩ :=
    exists_scale_eq ha' (k := 0) (by decide) (by decide)
  have hquotient : (num : ℚ) / den = value a := by simpa using hexact (by decide) (by decide)
  obtain ⟨y, hy, -⟩ := exists_double_relative hnum hden
    (hreach (by rw [hquotient]; linarith) (by rw [hquotient]; linarith))
  simp [toDouble?, ha, hscale, hy]

end ToDouble

end Decimal

end SpatialGrammar
