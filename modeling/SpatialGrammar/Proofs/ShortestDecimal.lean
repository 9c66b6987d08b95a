/-
SpatialGrammar/Proofs/ShortestDecimal.lean

Which decimal the shortest one is.

The grids are walked from coarse to fine.  On the grid of powers of a tenth where every
single-precision number lies there is a hit, so the walk stops at one; and since there was
none on the grid before, that grid is coarser than the interval is wide, which bounds the
digits.  Where the ends of the interval are equally far away the hit is the nearest grid
point, since what is nearer than a point of such an interval lies in it too.
-/
import Mathlib.Algebra.Order.Field.Power
import Mathlib.Tactic.FieldSimp
import Mathlib.Tactic.Linarith
import Mathlib.Tactic.Positivity
import Mathlib.Tactic.Ring
import SpatialGrammar.Decimal.Shortest

namespace SpatialGrammar.Decimal

namespace RoundingInterval

/-! ### Points of an interval -/

/-- The lower end. -/
def lower (i : RoundingInterval) : ℚ := i.low / i.den

/-- The number that the interval belongs to. -/
def middle (i : RoundingInterval) : ℚ := i.mid / i.den

/-- The upper end. -/
def upper (i : RoundingInterval) : ℚ := i.high / i.den

/-- Whether a number lies in the interval. -/
def Within (i : RoundingInterval) (q : ℚ) : Prop :=
  if i.closed then i.lower ≤ q ∧ q ≤ i.upper else i.lower < q ∧ q < i.upper

variable {i : RoundingInterval}

theorem Within.le {q : ℚ} (h : i.Within q) : i.lower ≤ q ∧ q ≤ i.upper := by
  unfold Within at h
  split at h
  · exact h
  · exact ⟨h.1.le, h.2.le⟩

theorem within_of_lt {q : ℚ} (hl : i.lower < q) (hu : q < i.upper) : i.Within q := by
  unfold Within
  split
  · exact ⟨hl.le, hu.le⟩
  · exact ⟨hl, hu⟩

/-- The test of a whole number is whether it lies in the interval. -/
theorem holds_iff (hden : 0 < i.den) (n : Nat) : i.holds (n * i.den) ↔ i.Within n := by
  have hpos : (0 : ℚ) < i.den := by exact_mod_cast hden
  unfold holds Within lower upper
  split
  · rw [decide_eq_true_iff, div_le_iff₀ hpos, le_div_iff₀ hpos]
    norm_cast
  · rw [decide_eq_true_iff, div_lt_iff₀ hpos, lt_div_iff₀ hpos]
    norm_cast

/-- The whole number at or below the middle. -/
theorem floor_middle (hden : 0 < i.den) :
    ((i.mid / i.den : Nat) : ℚ) ≤ i.middle ∧ i.middle < (i.mid / i.den : Nat) + 1 := by
  have hpos : (0 : ℚ) < i.den := by exact_mod_cast hden
  unfold middle
  constructor
  · rw [le_div_iff₀ hpos]
    exact_mod_cast Nat.div_mul_le_self i.mid i.den
  · rw [div_lt_iff₀ hpos]
    exact_mod_cast (Nat.div_lt_iff_lt_mul hden).mp (Nat.lt_succ_self (i.mid / i.den))

/-- Twice the rest over the whole number below the middle. -/
theorem rest_middle (hden : 0 < i.den) :
    2 * (i.middle - (i.mid / i.den : Nat)) = (2 * (i.mid % i.den) : Nat) / i.den := by
  have hpos : (i.den : ℚ) ≠ 0 := by exact_mod_cast hden.ne'
  have hdiv : (i.mid : ℚ) = i.den * (i.mid / i.den : Nat) + (i.mid % i.den : Nat) := by
    exact_mod_cast (Nat.div_add_mod i.mid i.den).symm
  unfold middle
  rw [eq_div_iff hpos, hdiv]
  push_cast
  field_simp
  ring

/-- A hit is one of the two whole numbers around the middle, and the other one is no nearer hit. -/
theorem nearestWhole?_cases (hden : 0 < i.den) {evenTies : Bool} {n : Nat}
    (h : i.nearestWhole? evenTies = some n) :
    let d : Nat := i.mid / i.den
    (n = d ∧ i.Within d ∧ (i.Within (d + 1) → 2 * (i.middle - d) ≤ 1)) ∨
      (n = d + 1 ∧ i.Within (d + 1) ∧ (i.Within d → 1 ≤ 2 * (i.middle - d))) := by
  intro d
  have hpos : (0 : ℚ) < i.den := by exact_mod_cast hden
  have hdown : i.holds (d * i.den) ↔ i.Within d := holds_iff hden d
  have hup : i.holds ((d + 1) * i.den) ↔ i.Within (d + 1) := by
    exact_mod_cast holds_iff hden (d + 1)
  have hle : 2 * (i.mid % i.den) ≤ i.den → 2 * (i.middle - d) ≤ 1 := by
    intro hle
    rw [rest_middle hden, div_le_one hpos]
    exact_mod_cast hle
  have hge : i.den ≤ 2 * (i.mid % i.den) → 1 ≤ 2 * (i.middle - d) := by
    intro hge
    rw [rest_middle hden, one_le_div hpos]
    exact_mod_cast hge
  unfold nearestWhole? at h
  dsimp only at h
  split at h
  next hboth =>
    -- both are hits, and the nearer one is taken
    obtain ⟨hd, hu⟩ := Bool.and_eq_true_iff.mp hboth
    split_ifs at h with hlt hgt heven
    · exact .inl ⟨(Option.some.inj h).symm, hdown.mp hd, fun _ => hle hlt.le⟩
    · exact .inr ⟨(Option.some.inj h).symm, hup.mp hu, fun _ => hge hgt.le⟩
    · exact .inl ⟨(Option.some.inj h).symm, hdown.mp hd, fun _ => hle (not_lt.mp hgt)⟩
    · exact .inr ⟨(Option.some.inj h).symm, hup.mp hu, fun _ => hge (not_lt.mp hlt)⟩
  next hboth =>
    split_ifs at h with hd hu
    · have hu : ¬ i.Within (d + 1) := fun hw => hboth (by simp [hd, hup.mpr hw, d])
      exact .inl ⟨(Option.some.inj h).symm, hdown.mp hd, fun hw => absurd hw hu⟩
    · have hd : ¬ i.Within d := fun hw => hd (hdown.mpr hw)
      exact .inr ⟨(Option.some.inj h).symm, hup.mp hu, fun hw => absurd hw hd⟩

/-- **A hit lies in the interval, and if the ends are equally far away, it is off by at most a
half.** -/
theorem nearestWhole?_eq_some (hden : 0 < i.den) {evenTies : Bool} {n : Nat}
    (h : i.nearestWhole? evenTies = some n) :
    i.Within n ∧ (i.middle - i.lower = i.upper - i.middle → |(n : ℚ) - i.middle| ≤ 1 / 2) := by
  obtain ⟨hfloor, hceil⟩ := floor_middle hden
  rcases nearestWhole?_cases hden h with ⟨rfl, hn, hother⟩ | ⟨rfl, hn, hother⟩
  · refine ⟨hn, fun hmiddle => ?_⟩
    have hlower := hn.le.1
    have hhalf : 2 * (i.middle - (i.mid / i.den : Nat)) ≤ 1 := by
      by_contra hfar
      exact hfar (hother (within_of_lt (by linarith) (by linarith)))
    rw [abs_le]
    constructor <;> linarith
  · push_cast
    refine ⟨hn, fun hmiddle => ?_⟩
    have hupper := hn.le.2
    have hhalf : 1 ≤ 2 * (i.middle - (i.mid / i.den : Nat)) := by
      by_contra hfar
      exact hfar (hother (within_of_lt (by linarith) (by linarith)))
    rw [abs_le]
    constructor <;> linarith

/-- Without a hit the interval lies between the whole numbers around its middle. -/
theorem nearestWhole?_eq_none (hden : 0 < i.den) {evenTies : Bool} (hlower : i.lower < i.middle)
    (hupper : i.middle < i.upper) (h : i.nearestWhole? evenTies = none) :
    (i.mid / i.den : Nat) ≤ i.lower ∧ i.upper ≤ (i.mid / i.den : Nat) + 1 := by
  obtain ⟨hfloor, hceil⟩ := floor_middle hden
  have hdown := holds_iff hden (i.mid / i.den)
  have hup := holds_iff hden (i.mid / i.den + 1)
  push_cast at hup
  unfold nearestWhole? at h
  dsimp only at h
  split_ifs at h with hboth _ _ _ hd hu
  constructor
  · by_contra hlt
    exact hd (hdown.mpr (within_of_lt (not_le.mp hlt) (by linarith)))
  · by_contra hlt
    exact hu (hup.mpr (within_of_lt (by linarith) (not_le.mp hlt)))

/-- A whole number in the middle is a hit. -/
theorem nearestWhole?_ne_none (hden : 0 < i.den) (evenTies : Bool) (hlower : i.lower < i.middle)
    (hupper : i.middle < i.upper) {n : Nat} (hn : i.middle = n) :
    i.nearestWhole? evenTies ≠ none := by
  intro hnone
  have hceil := (floor_middle hden).2
  obtain ⟨hfloor, -⟩ := nearestWhole?_eq_none hden hlower hupper hnone
  rw [hn] at hceil hlower
  have h₁ : i.mid / i.den < n := by exact_mod_cast hfloor.trans_lt hlower
  have h₂ : n < i.mid / i.den + 1 := by exact_mod_cast hceil
  omega

/-! ### Grids -/

theorem inUnitsOf_den_pos (hden : 0 < i.den) (k : Int) : 0 < (i.inUnitsOf k).den := by
  unfold inUnitsOf
  split
  · exact Nat.mul_pos hden (Nat.pow_pos (by decide))
  · exact hden

theorem inUnitsOf_ends (i : RoundingInterval) (k : Int) :
    (i.inUnitsOf k).lower = i.lower / 10 ^ k ∧ (i.inUnitsOf k).middle = i.middle / 10 ^ k ∧
      (i.inUnitsOf k).upper = i.upper / 10 ^ k := by
  unfold inUnitsOf lower middle upper
  split
  next hk =>
    obtain ⟨n, rfl⟩ := Int.eq_ofNat_of_zero_le hk
    simp [zpow_natCast, div_div]
  next hk =>
    obtain ⟨n, hn⟩ : ∃ n : Nat, (-k).toNat = n := ⟨_, rfl⟩
    obtain rfl : k = -(n : Int) := by omega
    simp only [hn, zpow_neg, zpow_natCast, div_inv_eq_mul, Nat.pow_eq, Nat.cast_mul, Nat.cast_pow,
      Nat.cast_ofNat]
    exact ⟨by ring, by ring, by ring⟩

theorem inUnitsOf_closed (i : RoundingInterval) (k : Int) : (i.inUnitsOf k).closed = i.closed := by
  unfold inUnitsOf
  split <;> rfl

end RoundingInterval

/-- **The walk over the grids stops at a hit, and there is none on the grid before.** -/
theorem firstHit_spec (evenTies : Bool) (i : RoundingInterval) {grids j : Nat} {k : Int}
    (hj : j < grids) (hhit : (i.inUnitsOf (k - j)).nearestWhole? evenTies ≠ none) :
    let hit := firstHit evenTies i grids k
    (i.inUnitsOf hit.2).nearestWhole? evenTies = some hit.1 ∧
      (hit.2 = k ∨ (i.inUnitsOf (hit.2 + 1)).nearestWhole? evenTies = none) := by
  induction grids generalizing j k with
  | zero => exact absurd hj (Nat.not_lt_zero j)
  | succ grids ih =>
    unfold firstHit
    split
    next d hd => exact ⟨hd, .inl rfl⟩
    next hnone =>
      -- the grid on which a hit is known of is still to come
      obtain ⟨j, rfl⟩ : ∃ n, j = n + 1 := by
        refine ⟨j - 1, (Nat.succ_pred_eq_of_ne_zero ?_).symm⟩
        rintro rfl
        exact hhit (by simpa using hnone)
      have hnext : (i.inUnitsOf (k - 1 - j)).nearestWhole? evenTies ≠ none := by
        rwa [show k - 1 - (j : Int) = k - ((j + 1 : Nat) : Int) by push_cast; ring]
      obtain ⟨hfound, hbefore⟩ := ih (Nat.lt_of_succ_lt_succ hj) hnext
      refine ⟨hfound, .inr ?_⟩
      rcases hbefore with hfirst | hbefore
      · rwa [hfirst, sub_add_cancel]
      · exact hbefore

/-! ### The interval of a number -/

namespace RoundingInterval

variable {m : Nat} {e : Int}

theorem ofParts_den_pos (f : BinaryFormat) (m : Nat) (e : Int) : 0 < (ofParts f m e).den := by
  unfold ofParts
  dsimp only
  split
  · exact Nat.one_pos
  · exact Nat.pow_pos (by decide)

/-- The distance of a number from the lower end of its interval, in quarters of its unit. -/
def below (f : BinaryFormat) (m : Nat) (e : Int) : Nat :=
  if m = 2 ^ (f.precision - 1) ∧ f.least < e then 1 else 2

theorem below_le (f : BinaryFormat) (m : Nat) (e : Int) : 1 ≤ below f m e ∧ below f m e ≤ 2 := by
  unfold below
  split <;> decide

/-- The ends of the interval of a number, in quarters of its unit. -/
theorem ofParts_ends (f : BinaryFormat) (hm : 0 < m) (e : Int) :
    (ofParts f m e).lower = (4 * m - below f m e) * 2 ^ (e - 2) ∧
      (ofParts f m e).middle = 4 * m * 2 ^ (e - 2) ∧
        (ofParts f m e).upper = (4 * m + 2) * 2 ^ (e - 2) := by
  obtain ⟨up, den, hparts, hscale⟩ : ∃ up den : Nat,
      ofParts f m e = ⟨(4 * m - below f m e) * up, 4 * m * up, (4 * m + 2) * up, den, m % 2 = 0⟩ ∧
        (up : ℚ) / den = 2 ^ (e - 2) := by
    by_cases hk : 0 ≤ e - 2
    · refine ⟨_, _, by simp only [ofParts, if_pos hk]; rfl, ?_⟩
      obtain ⟨n, hn⟩ := Int.eq_ofNat_of_zero_le hk
      simp [hn]
    · refine ⟨_, _, by simp only [ofParts, if_neg hk]; rfl, ?_⟩
      obtain ⟨n, hn⟩ : ∃ n : Nat, (-(e - 2)).toNat = n := ⟨_, rfl⟩
      rw [hn, show e - 2 = -(n : Int) by omega]
      simp
  have hbelow : below f m e ≤ 4 * m := by
    have := (below_le f m e).2
    omega
  rw [hparts]
  unfold lower middle upper
  dsimp only
  rw [← hscale]
  push_cast [Nat.cast_sub hbelow]
  exact ⟨by ring, by ring, by ring⟩

/-- The interval of `m * 2 ^ e`: it reaches half a unit up, and half a unit or a quarter down. -/
structure Encloses (i : RoundingInterval) (m : Nat) (e : Int) : Prop where
  den_pos : 0 < i.den
  closed : i.closed = decide (m % 2 = 0)
  middle : i.middle = m * 2 ^ e
  upper : i.upper = m * 2 ^ e + 2 ^ e / 2
  lower_ge : (m : ℚ) * 2 ^ e - 2 ^ e / 2 ≤ i.lower
  lower_le : i.lower ≤ m * 2 ^ e - 2 ^ e / 4
  symmetric : ¬ (m = 2 ^ 23 ∧ -149 < e) → i.lower = m * 2 ^ e - 2 ^ e / 2

theorem ofParts_encloses (hm : 0 < m) (e : Int) : (ofParts .single m e).Encloses m e := by
  obtain ⟨hlower, hmiddle, hupper⟩ := ofParts_ends .single hm e
  have hquarter : (2 : ℚ) ^ (e - 2) = 2 ^ e / 4 := by
    rw [zpow_sub₀ two_ne_zero]
    norm_num
  rw [hquarter] at hlower hmiddle hupper
  have hpos : (0 : ℚ) < 2 ^ e := by positivity
  have hlow : (1 : ℚ) ≤ below .single m e := by exact_mod_cast (below_le .single m e).1
  have hhigh : (below .single m e : ℚ) ≤ 2 := by exact_mod_cast (below_le .single m e).2
  refine ⟨ofParts_den_pos .single m e, rfl, ?_, ?_, ?_, ?_, fun hpower => ?_⟩
  · rw [hmiddle]
    ring
  · rw [hupper]
    ring
  · rw [hlower]
    nlinarith
  · rw [hlower]
    nlinarith
  · have htwo : (below .single m e : ℚ) = 2 := by exact_mod_cast if_neg hpower
    rw [hlower, htwo]
    ring

section Encloses

variable {i : RoundingInterval} {n : Nat} {evenTies : Bool}

/-- What lies in the interval is no farther away than half a unit, and that far at even significands
only. -/
theorem Encloses.near (h : i.Encloses m e) {q : ℚ} (hq : i.Within q) :
    |q - m * 2 ^ e| ≤ 2 ^ e / 2 ∧ (m % 2 = 0 ∨ |q - m * 2 ^ e| < 2 ^ e / 2) := by
  have hupper := h.upper
  have hlower := h.lower_ge
  constructor
  · obtain ⟨h₁, h₂⟩ := hq.le
    rw [abs_le]
    constructor <;> linarith
  · refine or_iff_not_imp_left.mpr fun hodd => ?_
    unfold Within at hq
    rw [h.closed, decide_eq_false hodd, if_neg (by decide)] at hq
    rw [abs_lt]
    constructor <;> linarith

theorem Encloses.inside (h : i.Encloses m e) (k : Int) :
    (i.inUnitsOf k).lower < (i.inUnitsOf k).middle ∧
      (i.inUnitsOf k).middle < (i.inUnitsOf k).upper := by
  have hpos : (0 : ℚ) < 2 ^ e := by positivity
  have hlower := h.lower_le
  obtain ⟨hl, hm, hu⟩ := i.inUnitsOf_ends k
  rw [hl, hm, hu, h.middle, h.upper]
  constructor
  · gcongr
    linarith
  · gcongr
    linarith

/-- A hit on a grid lies in the interval, and is the nearest point of the grid if the ends are
equally far away. -/
theorem Encloses.of_hit (h : i.Encloses m e) {k : Int}
    (hhit : (i.inUnitsOf k).nearestWhole? evenTies = some n) :
    i.Within (n * 10 ^ k) ∧
      ((m = 2 ^ 23 ∧ -149 < e) ∨ |(n : ℚ) * 10 ^ k - m * 2 ^ e| ≤ 10 ^ k / 2) := by
  have hten : (0 : ℚ) < 10 ^ k := by positivity
  obtain ⟨hl, hmid, hu⟩ := i.inUnitsOf_ends k
  obtain ⟨hwithin, hnearest⟩ := nearestWhole?_eq_some (inUnitsOf_den_pos h.den_pos k) hhit
  constructor
  · unfold Within at hwithin ⊢
    rw [inUnitsOf_closed, hl, hu, div_le_iff₀ hten, le_div_iff₀ hten, div_lt_iff₀ hten,
      lt_div_iff₀ hten] at hwithin
    exact hwithin
  · refine or_iff_not_imp_left.mpr fun hpower => ?_
    have hhalf := hnearest (by
      rw [hl, hmid, hu, h.symmetric hpower, h.middle, h.upper]
      ring)
    rw [hmid, h.middle] at hhalf
    calc |(n : ℚ) * 10 ^ k - m * 2 ^ e|
        = |(n : ℚ) - m * 2 ^ e / 10 ^ k| * 10 ^ k := by
          rw [← abs_of_pos hten, ← abs_mul, abs_of_pos hten, sub_mul, div_mul_cancel₀ _ hten.ne']
      _ ≤ 1 / 2 * 10 ^ k := by gcongr
      _ = 10 ^ k / 2 := by ring

/-- A grid without a hit is no finer than the interval is wide. -/
theorem Encloses.of_no_hit (h : i.Encloses m e) {k : Int}
    (hnone : (i.inUnitsOf k).nearestWhole? evenTies = none) : (3 / 4 : ℚ) * 2 ^ e ≤ 10 ^ k := by
  have hten : (0 : ℚ) < 10 ^ k := by positivity
  have hlower := h.lower_le
  obtain ⟨hl, -, hu⟩ := i.inUnitsOf_ends k
  obtain ⟨h₁, h₂⟩ := nearestWhole?_eq_none (inUnitsOf_den_pos h.den_pos k) (h.inside k).1
    (h.inside k).2 hnone
  have hwidth : (i.inUnitsOf k).upper - (i.inUnitsOf k).lower ≤ 1 := by linarith
  rw [hl, hu, h.upper, ← sub_div, div_le_one hten] at hwidth
  linarith

/-- On the finest grid the number itself is a point. -/
theorem Encloses.hit_finest (h : i.Encloses m e) (he : -149 ≤ e) :
    (i.inUnitsOf (39 - (188 : Nat))).nearestWhole? evenTies ≠ none := by
  have hwhole : (i.inUnitsOf (39 - (188 : Nat))).middle =
      (m * 2 ^ (e + 149).toNat * 5 ^ 149 : Nat) := by
    obtain ⟨n, hn⟩ := Int.eq_ofNat_of_zero_le (show 0 ≤ e + 149 by omega)
    rw [(i.inUnitsOf_ends _).2.1, h.middle, show e = (n : Int) - 149 by omega,
      zpow_sub₀ two_ne_zero, zpow_natCast]
    push_cast
    rw [show (n : Int) - 149 + 149 = n by ring, Int.toNat_natCast]
    norm_num
    ring
  exact nearestWhole?_ne_none (inUnitsOf_den_pos h.den_pos _) evenTies (h.inside _).1
    (h.inside _).2 hwhole

end Encloses

end RoundingInterval

/-! ### The shortest decimal -/

/-- What is known of the shortest decimal of a number. -/
structure IsShortest (m : Nat) (e : Int) (d : Nat) (k : Int) : Prop where
  /-- It is no farther away than half a unit. -/
  near : |(d : ℚ) * 10 ^ k - m * 2 ^ e| ≤ 2 ^ e / 2
  /-- The half itself is reached by even significands only. -/
  strict : m % 2 = 0 ∨ |(d : ℚ) * 10 ^ k - m * 2 ^ e| < 2 ^ e / 2
  /-- It is the nearest point of its grid, unless the interval is shorter on one side. -/
  nearest : (m = 2 ^ 23 ∧ -149 < e) ∨ |(d : ℚ) * 10 ^ k - m * 2 ^ e| ≤ 10 ^ k / 2
  /-- The interval is no wider than the grid before, because no point of that is in it. -/
  coarse : k = 39 ∨ (3 / 4 : ℚ) * 2 ^ e ≤ 10 ^ (k + 1)

/-- **The shortest decimal of a number lies in its interval, and one digit less would not do.** -/
theorem shortest_spec (evenTies : Bool) {m : Nat} {e : Int} (hm : 0 < m) (he : -149 ≤ e) :
    IsShortest m e (shortest evenTies m e).1 (shortest evenTies m e).2 := by
  have h := RoundingInterval.ofParts_encloses hm e
  obtain ⟨hfound, hbefore⟩ := firstHit_spec evenTies _ (show 188 < 189 by decide) (h.hit_finest he)
  obtain ⟨hwithin, hnearest⟩ := h.of_hit hfound
  obtain ⟨hnear, hstrict⟩ := h.near hwithin
  exact ⟨hnear, hstrict, hnearest, hbefore.imp_right h.of_no_hit⟩

/-- **The digits of the shortest decimal of a single-precision number are fewer than `2 ^ 28`, and
its power of ten is in reach of one multiplication.** -/
theorem IsShortest.bounds {m d : Nat} {e k : Int} (h : IsShortest m e d k) (hm : 0 < m)
    (hm' : m < 2 ^ 24) (he : -149 ≤ e) (he' : e ≤ 104) :
    0 < d ∧ d < 2 ^ 28 ∧ -45 ≤ k ∧ k ≤ 38 := by
  have hpos : (0 : ℚ) < 2 ^ e := by positivity
  have hten : (0 : ℚ) < 10 ^ k := by positivity
  have hmq : (1 : ℚ) ≤ m := by exact_mod_cast hm
  have hmq' : (m : ℚ) + 1 ≤ 2 ^ 24 := by exact_mod_cast hm'
  obtain ⟨hlow, hhigh⟩ := abs_le.mp h.near
  have hd : 0 < d := by
    rw [Nat.pos_iff_ne_zero]
    rintro rfl
    push_cast at hlow
    nlinarith
  have hdq : (1 : ℚ) ≤ d := by exact_mod_cast hd
  have hk' : k ≤ 38 := by
    by_contra hk
    have hlarge : (10 : ℚ) ^ (39 : Int) ≤ 10 ^ k := zpow_le_zpow_right₀ (by norm_num) (by omega)
    have hsmall : (2 : ℚ) ^ e ≤ 2 ^ (104 : Int) := zpow_le_zpow_right₀ (by norm_num) he'
    have hnum : (2 : ℚ) ^ 24 * 2 ^ (104 : Int) < 10 ^ (39 : Int) := by norm_num
    nlinarith
  have hcoarse : (3 / 4 : ℚ) * 2 ^ e ≤ 10 ^ (k + 1) := by
    rcases h.coarse with rfl | hcoarse
    · omega
    · exact hcoarse
  refine ⟨hd, ?_, ?_, hk'⟩
  · rw [zpow_add_one₀ (by norm_num)] at hcoarse
    have hdigits : (d : ℚ) < 2 ^ 28 := by
      by_contra hlarge
      nlinarith
    exact_mod_cast hdigits
  · by_contra hk
    have hsmall : (10 : ℚ) ^ (k + 1) ≤ 10 ^ (-45 : Int) :=
      zpow_le_zpow_right₀ (by norm_num) (by omega)
    have hlarge : (2 : ℚ) ^ (-149 : Int) ≤ 2 ^ e := zpow_le_zpow_right₀ (by norm_num) he
    have hnum : (10 : ℚ) ^ (-45 : Int) < 3 / 4 * 2 ^ (-149 : Int) := by norm_num
    have hscaled : (3 / 4 : ℚ) * 2 ^ (-149 : Int) ≤ 3 / 4 * 2 ^ e := by gcongr
    exact absurd (hscaled.trans (hcoarse.trans hsmall)) (not_le.mpr hnum)

end SpatialGrammar.Decimal
