/-
SpatialGrammar/Proofs/Separation.lean

How near a decimal comes to the middle between two single-precision numbers.

The middles are the odd multiples of half a unit `2 ^ (e - 1)`, and measured in these halves the
decimals `d * 10 ^ s` are the multiples of a ratio.  So `d * 10 ^ s` is near `m` halves where
the fraction `m / d` is near the ratio.  Of the fractions whose denominators are not too large
only few are: neighbours among them have none in between, so those beyond the two neighbours
around the ratio, and beyond the two around these, are already far away.  Euclid's algorithm
finds the four; that they are neighbours, and how far away they are, is checked for every
exponent that single precision has.
-/
import Mathlib.Algebra.Order.Field.Power
import Mathlib.Tactic.FieldSimp
import Mathlib.Tactic.IntervalCases
import Mathlib.Tactic.Linarith
import Mathlib.Tactic.LinearCombination
import Mathlib.Tactic.Positivity
import Mathlib.Tactic.Ring
import SpatialGrammar.Numeric.Rounding

namespace SpatialGrammar

/-! ### Neighbours among the fractions of bounded denominators -/

/-- A numerator and a denominator. -/
abbrev Fraction := Nat × Nat

namespace Fraction

/-- Neighbours among the fractions whose denominators are at most `order`. -/
def Adjacent (order : Nat) (f g : Fraction) : Prop :=
  f.2 * g.1 = f.1 * g.2 + 1 ∧ order < f.2 + g.2

instance (order : Nat) : DecidableRel (Adjacent order) :=
  fun _ _ => inferInstanceAs (Decidable (_ ∧ _))

variable {order p q : Nat}

/-- A fraction between two neighbours has a large denominator. -/
theorem Adjacent.order_lt {f g : Fraction} (h : Adjacent order f g) (hl : f.1 * q < p * f.2)
    (hu : p * g.2 < g.1 * q) : order < q := by
  obtain ⟨hdet, hsum⟩ := h
  -- `q` is a combination of the two denominators with positive coefficients
  have hsplit : (q : Int) = g.2 * (p * f.2 - f.1 * q) + f.2 * (g.1 * q - p * g.2) := by
    have : (f.2 * g.1 : Int) = f.1 * g.2 + 1 := by exact_mod_cast hdet
    linear_combination (-q : Int) * this
  have h₁ : (1 : Int) ≤ p * f.2 - f.1 * q := by
    have : (f.1 * q : Int) < p * f.2 := by exact_mod_cast hl
    omega
  have h₂ : (1 : Int) ≤ g.1 * q - p * g.2 := by
    have : (p * g.2 : Int) < g.1 * q := by exact_mod_cast hu
    omega
  have hle : (g.2 * 1 + f.2 * 1 : Int) ≤ q := by
    rw [hsplit]
    gcongr
  omega

/-- **In a row of neighbours a fraction with a small denominator is a member or outside.** -/
theorem trichotomy_of_isChain {f : Fraction} {l : List Fraction}
    (h : (f :: l).IsChain (Adjacent order)) (hq : q ≤ order) :
    p * f.2 < f.1 * q ∨ (∃ g ∈ f :: l, p * g.2 = g.1 * q) ∨
      ∃ g ∈ (f :: l).getLast?, g.1 * q < p * g.2 := by
  -- along the row: what is above the first member is compared with the next one
  induction l generalizing f with
  | nil =>
    rcases lt_trichotomy (p * f.2) (f.1 * q) with hlt | heq | hgt
    · exact .inl hlt
    · exact .inr (.inl ⟨f, List.mem_singleton_self f, heq⟩)
    · exact .inr (.inr ⟨f, rfl, hgt⟩)
  | cons g l ih =>
    rcases ih h.tail with hlt | ⟨g', hmem, heq⟩ | ⟨g', hlast, hgt⟩
    · rcases lt_trichotomy (p * f.2) (f.1 * q) with hlt' | heq | hgt
      · exact .inl hlt'
      · exact .inr (.inl ⟨f, List.mem_cons_self, heq⟩)
      · exact absurd (h.rel.order_lt hgt hlt) (not_lt.mpr hq)
    · exact .inr (.inl ⟨g', List.mem_cons_of_mem f hmem, heq⟩)
    · exact .inr (.inr ⟨g', by rwa [List.getLast?_cons_cons], hgt⟩)

/-- A fraction that equals one in lowest terms is that one expanded. -/
theorem exists_expand {g : Fraction} (hg : Nat.Coprime g.1 g.2) (hp : 0 < p)
    (h : p * g.2 = g.1 * q) : ∃ j, p = g.1 * j ∧ q = g.2 * j := by
  obtain ⟨j, rfl⟩ : g.1 ∣ p := hg.dvd_of_dvd_mul_right (h ▸ Nat.dvd_mul_right g.1 q)
  refine ⟨j, rfl, Nat.eq_of_mul_eq_mul_left (Nat.pos_of_mul_pos_right hp) ?_⟩
  rw [← h]
  ring

/-! ### Fractions far from a ratio -/

/-- Below a ratio by more than one part in `2 ^ 51`. -/
def Under (ratio f : Fraction) : Prop :=
  2 ^ 51 * (f.1 * ratio.2) + f.2 * ratio.1 < 2 ^ 51 * (f.2 * ratio.1)

/-- Above a ratio by more than one part in `2 ^ 51`. -/
def Over (ratio f : Fraction) : Prop :=
  2 ^ 51 * (f.2 * ratio.1) + f.2 * ratio.1 < 2 ^ 51 * (f.1 * ratio.2)

instance (ratio f : Fraction) : Decidable (Under ratio f) := inferInstanceAs (Decidable (_ < _))

instance (ratio f : Fraction) : Decidable (Over ratio f) := inferInstanceAs (Decidable (_ < _))

variable {ratio f : Fraction}

theorem Under.of_le (h : Under ratio f) (hq : 0 < q) (hle : p * f.2 ≤ f.1 * q) :
    Under ratio (p, q) := by
  unfold Under at h ⊢
  refine Nat.lt_of_mul_lt_mul_left (a := f.2) ?_
  calc f.2 * (2 ^ 51 * (p * ratio.2) + q * ratio.1)
      = 2 ^ 51 * ratio.2 * (p * f.2) + f.2 * q * ratio.1 := by ring
    _ ≤ 2 ^ 51 * ratio.2 * (f.1 * q) + f.2 * q * ratio.1 := by gcongr
    _ = (2 ^ 51 * (f.1 * ratio.2) + f.2 * ratio.1) * q := by ring
    _ < 2 ^ 51 * (f.2 * ratio.1) * q := Nat.mul_lt_mul_of_pos_right h hq
    _ = f.2 * (2 ^ 51 * (q * ratio.1)) := by ring

theorem Over.of_le (h : Over ratio f) (hq : 0 < q) (hle : f.1 * q ≤ p * f.2) :
    Over ratio (p, q) := by
  unfold Over at h ⊢
  refine Nat.lt_of_mul_lt_mul_left (a := f.2) ?_
  calc f.2 * (2 ^ 51 * (q * ratio.1) + q * ratio.1)
      = (2 ^ 51 * (f.2 * ratio.1) + f.2 * ratio.1) * q := by ring
    _ < 2 ^ 51 * (f.1 * ratio.2) * q := Nat.mul_lt_mul_of_pos_right h hq
    _ = 2 ^ 51 * ratio.2 * (f.1 * q) := by ring
    _ ≤ 2 ^ 51 * ratio.2 * (p * f.2) := Nat.mul_le_mul_left _ hle
    _ = f.2 * (2 ^ 51 * (p * ratio.2)) := by ring

/-! ### The neighbours of a ratio -/

/-- Euclid's algorithm: `below` moves towards `above` and `above` towards `below`, as far as the
ratio and the bound of the denominators allow.  Nothing has to be known of where it ends, as that is
checked. -/
def around (ratio : Fraction) (order : Nat) : Nat → Fraction → Fraction → Fraction × Fraction
  | 0, below, above => (below, above)
  | fuel + 1, below, above =>
    if order < below.2 + above.2 then (below, above)
    else
      let up := min ((ratio.1 * below.2 - below.1 * ratio.2) /
        (above.1 * ratio.2 - ratio.1 * above.2)) ((order - below.2) / above.2)
      let below := (below.1 + up * above.1, below.2 + up * above.2)
      let down := min ((above.1 * ratio.2 - ratio.1 * above.2) /
        (ratio.1 * below.2 - below.1 * ratio.2)) ((order - above.2) / below.2)
      around ratio order fuel below (above.1 + down * below.1, above.2 + down * below.2)

/-- The neighbour of the second fraction on the side away from the first. -/
def beyond (order : Nat) (f g : Fraction) : Fraction :=
  let k := (order + f.2) / g.2
  (k * g.1 - f.1, k * g.2 - f.2)

/-- Four neighbours, the ratio between the second and the third.  The walk heads for a point just
above the ratio, which none of the fractions it meets is equal to. -/
def neighbours (ratio : Fraction) (order : Nat) : List Fraction :=
  let whole := ratio.1 / ratio.2
  let (below, above) :=
    around (2 ^ 64 * ratio.1 + 1, 2 ^ 64 * ratio.2) order 32 (whole, 1) (whole + 1, 1)
  [beyond order above below, below, above, beyond order below above]

end Fraction

namespace Decimal

open Fraction

/-! ### The grids of decimals -/

/-- The power of ten of the first grid whose points lie as far apart as a unit `2 ^ e`. -/
def firstWide (e : Int) : Int := -(-e * 30103 / 100000)

/-- How many halves of a unit the points of that grid are apart. -/
def spacing (e : Int) : Fraction :=
  (10 ^ (firstWide e).toNat * 2 ^ (1 - e).toNat, 10 ^ (-firstWide e).toNat * 2 ^ (e - 1).toNat)

/-- How many points that grid has below `2 ^ 24` units. -/
def points (e : Int) : Nat := 2 ^ 25 * (spacing e).2 / (spacing e).1

/-- A power with an integral exponent as a quotient of powers with natural ones. -/
theorem zpow_eq_div {b : ℚ} (hb : b ≠ 0) (k : Int) : b ^ k = b ^ k.toNat / b ^ (-k).toNat := by
  rw [eq_div_iff (pow_ne_zero _ hb), ← zpow_natCast, ← zpow_natCast, ← zpow_add₀ hb]
  congr 1
  omega

theorem spacing_pos (e : Int) : 0 < (spacing e).1 ∧ 0 < (spacing e).2 :=
  ⟨by simp [spacing], by simp [spacing]⟩

theorem spacing_eq (e : Int) :
    ((spacing e).1 : ℚ) / (spacing e).2 = 10 ^ firstWide e / 2 ^ (e - 1) := by
  rw [zpow_eq_div (by norm_num) (firstWide e), zpow_eq_div two_ne_zero (e - 1), neg_sub]
  unfold spacing
  push_cast
  field_simp

/-! ### The check -/

/-- The reasons why a neighbour of the ratio does no harm: it is far away, or its numerator is even,
or it is the ratio itself and the decimals are small enough to be read exactly.  One fraction has
none. -/
def Harmless (e : Int) (f : Fraction) : Prop :=
  Under (spacing e) f ∨ Over (spacing e) f ∨ Nat.Coprime f.1 f.2 ∧
    (f.1 % 2 = 0 ∨
      f.2 * (spacing e).1 = f.1 * (spacing e).2 ∧ 0 ≤ firstWide e ∧ firstWide e ≤ 10 ∨
      e = -107 ∧ f.1 = 22841339)

instance (e : Int) (f : Fraction) : Decidable (Harmless e f) :=
  inferInstanceAs (Decidable (_ ∨ _ ∨ _ ∧ (_ ∨ _ ∧ _ ∧ _ ∨ _ ∧ _)))

/-- The points of the first wide grid are a unit apart or more, those of the grid before it by
a little less than a unit, and the neighbours of the ratio do no harm. -/
def Checked (e : Int) : Prop :=
  2 * (spacing e).2 ≤ (spacing e).1 ∧
    2 ^ 20 * (spacing e).1 + 20 * (spacing e).2 ≤ 2 ^ 20 * (20 * (spacing e).2) ∧
    (neighbours (spacing e) (points e)).IsChain (Adjacent (points e)) ∧
    (∀ f ∈ (neighbours (spacing e) (points e)).head?, Under (spacing e) f) ∧
    (∀ f ∈ (neighbours (spacing e) (points e)).getLast?, Over (spacing e) f) ∧
    ∀ f ∈ neighbours (spacing e) (points e), Harmless e f

instance (e : Int) : Decidable (Checked e) :=
  inferInstanceAs (Decidable (_ ∧ _ ∧ _ ∧ _ ∧ _ ∧ _))

theorem checked_of_lt : ∀ n < 254, Checked ((n : Nat) - 149 : Int) := by
  decide +kernel

section Separated

variable {e : Int}

theorem checked (he : -149 ≤ e) (he' : e ≤ 104) : Checked e := by
  obtain ⟨n, hn⟩ := Int.eq_ofNat_of_zero_le (show 0 ≤ e + 149 by omega)
  obtain rfl : e = (n : Int) - 149 := by omega
  exact checked_of_lt n (by omega)

/-- On a grid whose points are closer than a unit, they are closer by one part in `2 ^ 20`. -/
theorem power_le_of_lt (he : -149 ≤ e) (he' : e ≤ 104) {k : Int} (hk : k < firstWide e) :
    (10 : ℚ) ^ k ≤ 2 ^ e * (1 - 2 ^ (-20 : Int)) := by
  obtain ⟨-, hgap, -⟩ := checked he he'
  have hden : (0 : ℚ) < (spacing e).2 := by exact_mod_cast (spacing_pos e).2
  have hcast : (2 ^ 20 * (spacing e).1 + 20 * (spacing e).2 : ℚ) ≤
      2 ^ 20 * (20 * (spacing e).2) := by exact_mod_cast hgap
  have hratio : ((spacing e).1 : ℚ) / (spacing e).2 ≤ 20 * (1 - 2 ^ (-20 : Int)) := by
    rw [div_le_iff₀ hden]
    norm_num at hcast ⊢
    linarith
  rw [spacing_eq, div_le_iff₀ (by positivity), zpow_sub_one₀ two_ne_zero] at hratio
  calc (10 : ℚ) ^ k ≤ 10 ^ (firstWide e - 1) := zpow_le_zpow_right₀ (by norm_num) (by omega)
    _ = 10 ^ firstWide e / 10 := by rw [zpow_sub_one₀ (by norm_num), div_eq_mul_inv]
    _ ≤ 2 ^ e * (1 - 2 ^ (-20 : Int)) := by linarith

/-- An odd multiple of the one fraction that is near without a reason is that fraction itself. -/
theorem eq_of_exception {m j : Nat} (hj : m = 22841339 * j) (hodd : m % 2 = 1) (hm : m < 2 ^ 25) :
    m = 22841339 := by
  have hsmall : j < 2 := by
    refine Nat.lt_of_mul_lt_mul_left (a := 22841339) (hj ▸ hm.trans ?_)
    norm_num
  interval_cases j
  · simp [hj] at hodd
  · simpa using hj

/-- A fraction with an odd numerator is far from the ratio, or one that does no harm. -/
theorem separated_fraction (he : -149 ≤ e) (he' : e ≤ 104) {m n : Nat} (hn : 0 < n)
    (hpoints : n ≤ points e) (hodd : m % 2 = 1) (hm : m < 2 ^ 25) :
    Under (spacing e) (m, n) ∨ Over (spacing e) (m, n) ∨
      n * (spacing e).1 = m * (spacing e).2 ∧ 0 ≤ firstWide e ∧ firstWide e ≤ 10 ∨
      e = -107 ∧ m = 22841339 := by
  obtain ⟨-, -, hchain, hfirst, hlast, hharmless⟩ := checked he he'
  obtain ⟨f, l, hl⟩ : ∃ f l, neighbours (spacing e) (points e) = f :: l := ⟨_, _, rfl⟩
  rw [hl] at hchain hfirst hlast hharmless
  rcases trichotomy_of_isChain (p := m) hchain hpoints with hlt | ⟨g, hmem, heq⟩ | ⟨g, hg, hgt⟩
  · exact .inl ((hfirst f rfl).of_le hn hlt.le)
  · rcases hharmless g hmem with hunder | hover | ⟨hcoprime, hreason⟩
    · exact .inl (hunder.of_le hn heq.le)
    · exact .inr (.inl (hover.of_le hn heq.ge))
    obtain ⟨j, hj, hj'⟩ := exists_expand hcoprime (by omega) heq
    -- the numerator is a multiple of the member's, so that an odd one comes from an odd one
    rcases hreason with heven | ⟨hratio, hsmall⟩ | ⟨hexception, hnum⟩
    · rw [hj, Nat.mul_mod, heven] at hodd
      simp at hodd
    · refine .inr (.inr (.inl ⟨?_, hsmall⟩))
      rw [hj, hj', mul_right_comm, hratio, mul_right_comm]
    · exact .inr (.inr (.inr ⟨hexception, eq_of_exception (hnum ▸ hj) hodd hm⟩))
  · exact .inr (.inl ((hlast g hg).of_le hn hgt.le))

/-- How far a fraction is from the ratio, in decimals and halves of a unit. -/
theorem far_of_under_or_over {m n : Nat} (h : Under (spacing e) (m, n) ∨ Over (spacing e) (m, n)) :
    (n : ℚ) * 10 ^ firstWide e * 2 ^ (-51 : Int) <
      |(n : ℚ) * 10 ^ firstWide e - m * 2 ^ (e - 1)| := by
  have hden : (0 : ℚ) < (spacing e).2 := by exact_mod_cast (spacing_pos e).2
  have hhalf : (0 : ℚ) < 2 ^ (e - 1) := by positivity
  have hscale : (10 : ℚ) ^ firstWide e * (spacing e).2 = (spacing e).1 * 2 ^ (e - 1) := by
    have := spacing_eq e
    rwa [div_eq_div_iff hden.ne' hhalf.ne', eq_comm] at this
  -- both sides are multiplied by the denominator of the ratio, and divided by half a unit
  suffices hfar : (n : ℚ) * (spacing e).1 * 2 ^ (-51 : Int) <
      |(n : ℚ) * (spacing e).1 - m * (spacing e).2| by
    refine lt_of_mul_lt_mul_right ?_ hden.le
    calc (n : ℚ) * 10 ^ firstWide e * 2 ^ (-51 : Int) * (spacing e).2
        = n * (spacing e).1 * 2 ^ (-51 : Int) * 2 ^ (e - 1) := by
          linear_combination ((n : ℚ) * 2 ^ (-51 : Int)) * hscale
      _ < |(n : ℚ) * (spacing e).1 - m * (spacing e).2| * 2 ^ (e - 1) := by gcongr
      _ = |(n : ℚ) * 10 ^ firstWide e - m * 2 ^ (e - 1)| * (spacing e).2 := by
          rw [← abs_of_pos hhalf, ← abs_mul, abs_of_pos hhalf, ← abs_of_pos hden, ← abs_mul,
            abs_of_pos hden]
          congr 1
          linear_combination (-n : ℚ) * hscale
  rcases h with hunder | hover
  · have hcast : (2 ^ 51 * (m * (spacing e).2) + n * (spacing e).1 : ℚ) <
        2 ^ 51 * (n * (spacing e).1) := by exact_mod_cast hunder
    refine lt_of_lt_of_le ?_ (le_abs_self _)
    norm_num at hcast ⊢
    linarith
  · have hcast : (2 ^ 51 * (n * (spacing e).1) + n * (spacing e).1 : ℚ) <
        2 ^ 51 * (m * (spacing e).2) := by exact_mod_cast hover
    refine lt_of_lt_of_le ?_ (neg_le_abs _)
    norm_num at hcast ⊢
    linarith

/-- **Between a decimal of few digits and an odd number of halves there is more than one part in
`2 ^ 51`, unless they are equal and the decimal can be read exactly, or it is the one pair that is
nearer.** -/
theorem separated (he : -149 ≤ e) (he' : e ≤ 104) {d m : Nat} {k : Int} (hk : firstWide e ≤ k)
    (hd : 0 < d) (hle : (d : ℚ) * 10 ^ k ≤ 2 ^ 25 * 2 ^ (e - 1)) (hodd : m % 2 = 1)
    (hm : m < 2 ^ 25) :
    (d : ℚ) * 10 ^ k * 2 ^ (-51 : Int) < |(d : ℚ) * 10 ^ k - m * 2 ^ (e - 1)| ∨
      (d : ℚ) * 10 ^ k = m * 2 ^ (e - 1) ∧ 0 ≤ k ∧ k ≤ 22 ∨ e = -107 ∧ m = 22841339 := by
  -- a point of a coarser grid is one of the first wide grid
  obtain ⟨j, rfl⟩ : ∃ j : Nat, k = firstWide e + j := ⟨(k - firstWide e).toNat, by omega⟩
  have hden : (0 : ℚ) < (spacing e).2 := by exact_mod_cast (spacing_pos e).2
  have hhalf : (0 : ℚ) < 2 ^ (e - 1) := by positivity
  have hspacing := spacing_eq e
  have hwide := (checked he he').1
  have hgrid : (d : ℚ) * 10 ^ (firstWide e + j) = (d * 10 ^ j : Nat) * 10 ^ firstWide e := by
    rw [zpow_add₀ (by norm_num), zpow_natCast]
    push_cast
    ring
  rw [hgrid] at hle ⊢
  have hpoints : d * 10 ^ j ≤ points e := by
    rw [points, Nat.le_div_iff_mul_le (spacing_pos e).1]
    have hratio : ((d * 10 ^ j : Nat) : ℚ) * ((spacing e).1 / (spacing e).2) ≤ 2 ^ 25 := by
      rwa [hspacing, ← mul_div_assoc, div_le_iff₀ hhalf]
    rw [← mul_div_assoc, div_le_iff₀ hden] at hratio
    exact_mod_cast hratio
  rcases separated_fraction he he' (Nat.mul_pos hd (by positivity)) hpoints hodd hm with
    hunder | hover | ⟨heq, hsmall, hsmall'⟩ | hexception
  · exact .inl (far_of_under_or_over (.inl hunder))
  · exact .inl (far_of_under_or_over (.inr hover))
  · refine .inr (.inl ⟨?_, by omega, ?_⟩)
    · have hcast : ((d * 10 ^ j : Nat) : ℚ) * (spacing e).1 = m * (spacing e).2 := by
        exact_mod_cast heq
      rw [div_eq_div_iff hden.ne' hhalf.ne'] at hspacing
      refine mul_right_cancel₀ hden.ne' ?_
      linear_combination (2 : ℚ) ^ (e - 1) * hcast - ((d * 10 ^ j : Nat) : ℚ) * hspacing
    · -- there are fewer than `10 ^ 8` points
      have hfew : 10 ^ j < 10 ^ 8 := by
        have h₁ : 10 ^ j ≤ points e := (Nat.le_mul_of_pos_left _ hd).trans hpoints
        have h₂ : points e ≤ 2 ^ 24 := by
          rw [points]
          refine Nat.div_le_of_le_mul ?_
          calc 2 ^ 25 * (spacing e).2 = 2 ^ 24 * (2 * (spacing e).2) := by ring
            _ ≤ 2 ^ 24 * (spacing e).1 := Nat.mul_le_mul_left _ hwide
            _ = (spacing e).1 * 2 ^ 24 := Nat.mul_comm _ _
        exact (h₁.trans h₂).trans_lt (by norm_num)
      have := (Nat.pow_lt_pow_iff_right (by decide)).mp hfew
      omega
  · exact .inr (.inr hexception)

end Separated

end Decimal

end SpatialGrammar
