/-
SpatialGrammar/Proofs/SingleNumerals.lean

Single-precision numbers come back from the text of a document.

A number is written as its shortest decimal, which is read by rounding at every step, first
in double precision and then to single precision.  What the steps leave of the decimal is a
little beside it, and has to stay between the middles to the neighbours of the number.  On a
grid finer than the unit the nearest point is far from the middles.  On a coarser one no point
is near a middle and not on it; and if it is on it, it is read exactly and goes back to the
even number that it came from.  The powers of two, whose interval is shorter on one side, and
the two numbers beside the one middle that a point is near are looked at one by one.
-/
import SpatialGrammar.Proofs.Binary32Order
import SpatialGrammar.Proofs.Numerals
import SpatialGrammar.Proofs.Separation
import SpatialGrammar.Proofs.ShortestDecimal
import SpatialGrammar.Proofs.StepwiseRounding

namespace SpatialGrammar

namespace Decimal

open BinaryFormat (value Canonical)

/-! ### The steps and the middles -/

section Near

variable {e k : Int} {d m : Nat} {y : ℚ}

/-- **What the steps leave of a decimal lies on the same side of a middle.** -/
theorem same_side (he : -149 ≤ e) (he' : e ≤ 104) (hk : firstWide e ≤ k) (hd : 0 < d)
    (hle : (d : ℚ) * 10 ^ k ≤ 2 ^ 25 * 2 ^ (e - 1)) (hodd : m % 2 = 1) (hm : m < 2 ^ 25)
    (hregular : ¬ (e = -107 ∧ m = 22841339))
    (hy : |y - d * 10 ^ k| ≤ d * 10 ^ k * 2 ^ (-51 : Int))
    (hexact : (d : ℚ) * 10 ^ k = m * 2 ^ (e - 1) → 0 ≤ k → k ≤ 22 → y = d * 10 ^ k) :
    ((d : ℚ) * 10 ^ k ≤ m * 2 ^ (e - 1) →
      y < m * 2 ^ (e - 1) ∨ y = m * 2 ^ (e - 1) ∧ (d : ℚ) * 10 ^ k = m * 2 ^ (e - 1)) ∧
    ((m : ℚ) * 2 ^ (e - 1) ≤ d * 10 ^ k →
      m * 2 ^ (e - 1) < y ∨ y = m * 2 ^ (e - 1) ∧ (d : ℚ) * 10 ^ k = m * 2 ^ (e - 1)) := by
  rcases separated he he' hk hd hle hodd hm with hfar | ⟨heq, hk₀, hk₂⟩ | hexception
  · obtain ⟨h₁, h₂⟩ := abs_le.mp hy
    constructor
    · intro hbelow
      rw [abs_of_nonpos (by linarith)] at hfar
      exact .inl (by linarith)
    · intro habove
      rw [abs_of_nonneg (by linarith)] at hfar
      exact .inl (by linarith)
  · have hsame := hexact heq hk₀ hk₂
    exact ⟨fun _ => .inr ⟨hsame.trans heq, heq⟩, fun _ => .inr ⟨hsame.trans heq, heq⟩⟩
  · exact absurd hexception hregular

/-- On a grid finer than the unit the shortest decimal is far from the middles. -/
theorem IsShortest.near_of_fine (h : IsShortest m e d k) (hm : Canonical .single m e)
    (hpower : e = -149 ∨ m ≠ 2 ^ 23) (hk : k < firstWide e)
    (hy : |y - d * 10 ^ k| ≤ d * 10 ^ k * 2 ^ (-51 : Int)) : |y - m * 2 ^ e| < 2 ^ e / 2 := by
  have hunit : (0 : ℚ) < 2 ^ e := by positivity
  have hmq : (m : ℚ) + 1 ≤ 2 ^ 24 := by exact_mod_cast hm.lt
  have hnearest : |(d : ℚ) * 10 ^ k - m * 2 ^ e| ≤ 10 ^ k / 2 := by
    refine h.nearest.resolve_left ?_
    rintro ⟨rfl, hgt⟩
    rcases hpower with rfl | hne
    · exact absurd hgt (lt_irrefl _)
    · exact hne rfl
  have hgap := power_le_of_lt hm.least_le hm.le_greatest hk
  have hsize : (d : ℚ) * 10 ^ k * 2 ^ (-51 : Int) ≤ 2 ^ e * 2 ^ (-27 : Int) := by
    have habove := (abs_le.mp h.near).2
    have : (d : ℚ) * 10 ^ k ≤ 2 ^ 24 * 2 ^ e := by nlinarith
    norm_num at this ⊢
    linarith
  -- half the spacing is less than half a unit by more than the steps add
  calc |y - m * 2 ^ e|
      ≤ |y - d * 10 ^ k| + |(d : ℚ) * 10 ^ k - m * 2 ^ e| := abs_sub_le _ _ _
    _ ≤ 2 ^ e * 2 ^ (-27 : Int) + 2 ^ e * (1 - 2 ^ (-20 : Int)) / 2 := by
        gcongr
        · exact hy.trans hsize
        · exact hnearest.trans (by gcongr)
    _ < 2 ^ e / 2 := by
        norm_num
        linarith

/-- **What the steps leave of the shortest decimal of a number is no farther from it than half its
unit, and reaches the half at even numbers only.** -/
theorem IsShortest.stays_near (h : IsShortest m e d k) (hd : 0 < d)
    (hm : Canonical .single m e) (hpower : e = -149 ∨ m ≠ 2 ^ 23)
    (hregular : ¬ (e = -107 ∧ (m = 11420669 ∨ m = 11420670)))
    (hy : |y - d * 10 ^ k| ≤ d * 10 ^ k * 2 ^ (-51 : Int))
    (hexact : ∀ n : Nat, n < 2 ^ 25 → (d : ℚ) * 10 ^ k = n * 2 ^ (e - 1) → 0 ≤ k → k ≤ 22 →
      y = d * 10 ^ k) :
    |y - m * 2 ^ e| ≤ 2 ^ e / 2 ∧ (m % 2 = 0 ∨ |y - m * 2 ^ e| < 2 ^ e / 2) := by
  rcases lt_or_ge k (firstWide e) with hfine | hwide
  · have hlt := h.near_of_fine hm hpower hfine hy
    exact ⟨hlt.le, .inr hlt⟩
  have he : -149 ≤ e := hm.least_le
  have he' : e ≤ 104 := hm.le_greatest
  have hlt : m < 2 ^ 24 := hm.lt
  have hhalf : (2 : ℚ) ^ e = 2 * 2 ^ (e - 1) := by
    rw [zpow_sub_one₀ two_ne_zero]
    ring
  -- the middles above and below are `2 * n + 3` and `2 * n + 1` halves
  obtain ⟨n, rfl⟩ := Nat.exists_eq_add_of_lt hm.pos
  have hup : ((2 * n + 3 : Nat) : ℚ) * 2 ^ (e - 1) = (0 + n + 1 : Nat) * 2 ^ e + 2 ^ e / 2 := by
    rw [hhalf]
    push_cast
    ring
  have hdown : ((2 * n + 1 : Nat) : ℚ) * 2 ^ (e - 1) = (0 + n + 1 : Nat) * 2 ^ e - 2 ^ e / 2 := by
    rw [hhalf]
    push_cast
    ring
  obtain ⟨hnear, hnear'⟩ := abs_le.mp h.near
  have hle : (d : ℚ) * 10 ^ k ≤ 2 ^ 25 * 2 ^ (e - 1) := by
    have hmq : ((0 + n + 1 : Nat) : ℚ) + 1 ≤ 2 ^ 24 := by exact_mod_cast hlt
    have hunit : (0 : ℚ) < 2 ^ (e - 1) := by positivity
    rw [hhalf] at hnear'
    nlinarith
  have habove := (same_side (m := 2 * n + 3) he he' hwide hd hle (by omega) (by omega)
    (by omega) hy (hexact _ (by omega))).1 (by linarith)
  have hbelow := (same_side (m := 2 * n + 1) he he' hwide hd hle (by omega) (by omega)
    (by omega) hy (hexact _ (by omega))).2 (by linarith)
  rw [hup] at habove
  rw [hdown] at hbelow
  refine ⟨abs_le.mpr ⟨?_, ?_⟩, h.strict.imp_right fun hstrict => ?_⟩
  · rcases hbelow with hbelow | ⟨hbelow, -⟩ <;> linarith
  · rcases habove with habove | ⟨habove, -⟩ <;> linarith
  · -- an odd number is not in the middle, so neither is what the steps leave
    obtain ⟨hstrict, hstrict'⟩ := abs_lt.mp hstrict
    refine abs_lt.mpr ⟨?_, ?_⟩
    · rcases hbelow with hbelow | ⟨-, hbelow⟩ <;> linarith
    · rcases habove with habove | ⟨-, habove⟩ <;> linarith

end Near

/-! ### The steps -/

/-- What a decimal comes to in double precision and from there in single precision, its sign left
out. -/
def comesTo? (d : Nat) (k : Int) : Option (Nat × Int) :=
  (toDouble? ⟨false, d, k⟩).bind fun y => BinaryFormat.single.roundScaled y.1 1 y.2

/-- The decimal of a number comes back to it, also where a zero follows the point and the digits are
counted in tenths. -/
def ComesBack (m : Nat) (e : Int) (d : Nat) (k : Int) : Prop :=
  comesTo? d k = some (m, e) ∧
    (0 ≤ k → d * 10 ^ (k + 1).toNat < 10 ^ 14 →
      comesTo? (d * 10 ^ (k + 1).toNat) (-1) = some (m, e))

instance (m : Nat) (e : Int) (d : Nat) (k : Int) : Decidable (ComesBack m e d k) :=
  inferInstanceAs (Decidable (_ ∧ (_ → _ → _)))

section ComesBack

variable {m d d' : Nat} {e k k' : Int}

/-- **The shortest decimal comes back, however its digits are counted.** -/
theorem IsShortest.comesTo? (h : IsShortest m e d k) (hd : 0 < d) (hm : Canonical .single m e)
    (hpower : e = -149 ∨ m ≠ 2 ^ 23)
    (hregular : ¬ (e = -107 ∧ (m = 11420669 ∨ m = 11420670)))
    (hd' : 0 < d') (hlt : d' < 2 ^ 53) (hk : -45 ≤ k') (hk' : k' ≤ 45)
    (hsame : (d' : ℚ) * 10 ^ k' = d * 10 ^ k) (hsmall : 0 ≤ k → k ≤ 22 → -22 ≤ k' ∧ k' ≤ 22) :
    comesTo? d' k' = some (m, e) := by
  obtain ⟨y, hy, herror, hexact⟩ := exists_toDouble? false hd' hlt hk hk'
  rw [hsame] at herror hexact
  have hscale : (0 : ℚ) < d * 10 ^ k := by
    have : (0 : ℚ) < d := by exact_mod_cast hd
    positivity
  have hpos : 0 < y.1 := by
    have hlow := (abs_le.mp herror).1
    norm_num at hlow
    exact BinaryFormat.pos_of_value_pos (by linarith)
  obtain ⟨hle, hodd⟩ := h.stays_near hd hm hpower hregular herror fun n hn hparts hk₀ hk₂ =>
    hexact n (e - 1) (hsmall hk₀ hk₂).1 (hsmall hk₀ hk₂).2 (hn.trans (by norm_num))
      (by have : -149 ≤ e := hm.least_le; omega) hparts
  obtain ⟨num, den, hnum, hden, hquotient, hround⟩ :=
    BinaryFormat.exists_roundScaled_eq (f := .single) hpos Nat.one_pos y.2
  have hvalue : (num : ℚ) / den = value y := by
    rw [hquotient, Nat.cast_one, div_one]
    rfl
  have hunit : (0 : ℚ) < 2 ^ e := by positivity
  have hdist : |(num : ℚ) / den / 2 ^ e - m| = |value y - m * 2 ^ e| / 2 ^ e := by
    rw [hvalue, ← abs_of_pos hunit, ← abs_div, abs_of_pos hunit, sub_div,
      mul_div_cancel_right₀ _ hunit.ne']
  rw [Decimal.comesTo?, hy, Option.bind_some, hround]
  refine BinaryFormat.round_of_near (by decide) hnum hden hm hpower ?_ ?_
  · rw [hdist, div_le_iff₀ hunit]
    linarith
  · refine hodd.imp_right fun hlt => ?_
    rw [hdist, div_lt_iff₀ hunit]
    linarith

/-- The powers of two. -/
theorem comesBack_power : ∀ n < 253,
    ComesBack (2 ^ 23) ((n : Nat) - 148 : Int) (shortest true (2 ^ 23) ((n : Nat) - 148 : Int)).1
      (shortest true (2 ^ 23) ((n : Nat) - 148 : Int)).2 := by
  decide +kernel

/-- The two numbers beside the middle that a decimal is near. -/
theorem comesBack_exception : ∀ m ∈ [11420669, 11420670],
    ComesBack m (-107) (shortest true m (-107)).1 (shortest true m (-107)).2 := by
  decide +kernel

/-- **The shortest decimal of every number comes back to it.** -/
theorem comesBack_shortest (hm : Canonical .single m e) :
    ComesBack m e (shortest true m e).1 (shortest true m e).2 := by
  have he : -149 ≤ e := hm.least_le
  have he' : e ≤ 104 := hm.le_greatest
  by_cases hpower : e = -149 ∨ m ≠ 2 ^ 23
  · by_cases hregular : e = -107 ∧ (m = 11420669 ∨ m = 11420670)
    · obtain ⟨rfl, hexception⟩ := hregular
      exact comesBack_exception m (by simpa using hexception)
    · have h := shortest_spec true hm.pos he
      generalize (shortest true m e).1 = d at h ⊢
      generalize (shortest true m e).2 = k at h ⊢
      obtain ⟨hd, hdigits, hk, hk'⟩ := h.bounds hm.pos hm.lt he he'
      refine ⟨?_, fun hk₀ hlt => ?_⟩
      · exact h.comesTo? hd hm hpower hregular hd (hdigits.trans (by norm_num)) hk (by omega) rfl
          fun hk₀ hk₂ => ⟨by omega, hk₂⟩
      · -- the same number, counted in tenths
        refine h.comesTo? hd hm hpower hregular (by positivity) (hlt.trans (by norm_num))
          (by decide) (by decide) ?_ fun _ _ => ⟨by decide, by decide⟩
        obtain ⟨n, rfl⟩ := Int.eq_ofNat_of_zero_le hk₀
        rw [show ((n : Int) + 1).toNat = n + 1 by omega, zpow_natCast, zpow_neg_one]
        push_cast
        rw [pow_succ]
        field_simp
  · obtain ⟨hne, rfl⟩ := not_or.mp hpower |>.imp_right not_not.mp
    obtain ⟨n, hn⟩ := Int.eq_ofNat_of_zero_le (show 0 ≤ e + 148 by omega)
    obtain rfl : e = (n : Int) - 148 := by omega
    exact comesBack_power n (by omega)

end ComesBack

end Decimal

/-! ### The parts of a number -/

namespace Binary32

/-- Whether a number is neither infinite nor no number at all. -/
def isFinite (x : Float32) : Bool :=
  match parts x with
  | .finite _ _ _ => true
  | _ => false

theorem exists_parts {x : Float32} (h : isFinite x) :
    ∃ negative m e, parts x = .finite negative m e := by
  unfold isFinite at h
  split at h
  next negative m e hparts => exact ⟨negative, m, e, hparts⟩
  next => exact absurd h (by decide)

section Parts

variable {x : Float32} {negative : Bool} {m : Nat} {e : Int}

/-- A finite number taken apart: its sign, its biased exponent and its fraction. -/
theorem parts_eq_finite (h : parts x = .finite negative m e) : ∃ biased fraction : Nat,
    biased < 255 ∧ fraction < 0x800000 ∧
    x.toBits.toNat = (if negative then 0x80000000 else 0) + biased * 0x800000 + fraction ∧
    (biased = 0 ∧ m = fraction ∧ e = -149 ∨
      0 < biased ∧ m = 0x800000 + fraction ∧ e = (biased : Int) - 150) := by
  have hlt : x.toBits.toNat < 2 ^ 32 := x.toBits.toNat_lt
  unfold parts at h
  dsimp only at h
  generalize x.toBits.toNat = bits at h hlt
  -- the bits are the sign, the exponent and the fraction side by side
  have hbits : bits = (if decide (0x80000000 ≤ bits) then 0x80000000 else 0) +
      bits / 0x800000 % 0x100 * 0x800000 + bits % 0x800000 := by
    simp only [decide_eq_true_eq]
    split <;> omega
  have hfraction : bits % 0x800000 < 0x800000 := Nat.mod_lt _ (by decide)
  have hbiased : bits / 0x800000 % 0x100 < 0x100 := Nat.mod_lt _ (by decide)
  split_ifs at h with h₁ h₂ h₃
  · obtain ⟨rfl, rfl, rfl⟩ := Parts.finite.inj h
    exact ⟨0, _, by decide, hfraction, by rwa [h₃] at hbits, .inl ⟨rfl, rfl, rfl⟩⟩
  · obtain ⟨rfl, rfl, rfl⟩ := Parts.finite.inj h
    exact ⟨_, _, by omega, hfraction, hbits, .inr ⟨Nat.pos_of_ne_zero h₃, rfl, rfl⟩⟩

/-- A finite number that is not zero has a significand of full length, or the least exponent. -/
theorem canonical_of_parts (h : parts x = .finite negative m e) (hm : 0 < m) :
    BinaryFormat.Canonical .single m e := by
  obtain ⟨biased, fraction, hbiased, hfraction, -, ⟨-, rfl, rfl⟩ | ⟨hpos, rfl, rfl⟩⟩ :=
    parts_eq_finite h
  · exact ⟨hm, hfraction.trans (by decide), le_rfl, by decide, .inl rfl⟩
  · refine ⟨hm, ?_, ?_, ?_, .inr (Nat.le_add_right _ _)⟩
    · exact (Nat.add_lt_add_left hfraction _).trans_le (by decide)
    · show -149 ≤ (biased : Int) - 150
      omega
    · show (biased : Int) - 150 ≤ 104
      omega

theorem exponent_of_zero (h : parts x = .finite negative 0 e) : e = -149 := by
  obtain ⟨biased, fraction, -, -, -, ⟨-, -, rfl⟩ | ⟨-, hm, -⟩⟩ := parts_eq_finite h
  · rfl
  · omega

/-- The number nearest to what rounds to the parts of a number is that number. -/
theorem nearest_eq (h : parts x = .finite negative m e) {num den : Nat}
    (hround : BinaryFormat.single.round num den = some (m, e)) :
    nearest negative num den = x := by
  obtain ⟨biased, fraction, hbiased, hfraction, hbits, hparts⟩ := parts_eq_finite h
  have hmagnitude : (if m < 0x800000 then m else (e + 150).toNat * 0x800000 + (m - 0x800000)) =
      biased * 0x800000 + fraction := by
    rcases hparts with ⟨rfl, rfl, rfl⟩ | ⟨hpos, rfl, rfl⟩
    · rw [if_pos hfraction, Nat.zero_mul, Nat.zero_add]
    · rw [if_neg (by omega), sub_add_cancel, Int.toNat_natCast, Nat.add_sub_cancel_left]
  have hsame : x.toBits = UInt32.ofNat ((if negative then 0x80000000 else 0) +
      (biased * 0x800000 + fraction)) := by
    rw [← UInt32.ofNat_toNat (x := x.toBits), hbits, Nat.add_assoc]
  unfold nearest
  rw [hround]
  dsimp only
  rw [hmagnitude, ← Float32.ofBits_toBits x, hsame]
  cases negative <;> rfl

theorem nearestScaled_eq (h : parts x = .finite negative m e) {n : Nat} {t : Int}
    (hround : BinaryFormat.single.roundScaled n 1 t = some (m, e)) :
    nearestScaled negative n t = x := by
  unfold nearestScaled
  unfold BinaryFormat.roundScaled at hround
  split at hround
  next ht => rw [if_pos ht, nearest_eq h hround]
  next ht => rw [if_neg ht, nearest_eq h (by rwa [Nat.one_mul] at hround)]

end Parts

end Binary32

/-! ### The texts of numbers -/

namespace Decimal

open Binary32 (parts isFinite)

variable {x : Float32} {negative : Bool} {m d : Nat} {e k : Int}

/-- A decimal that comes to the parts of a number is read as that number. -/
theorem toSingleStepwise?_eq (h : parts x = .finite negative m e)
    (hcomes : comesTo? d k = some (m, e)) : toSingleStepwise? ⟨negative, d, k⟩ = some x := by
  obtain ⟨⟨n, t⟩, hy, hround⟩ := Option.bind_eq_some_iff.mp hcomes
  have hdouble : toDouble? ⟨negative, d, k⟩ = some (n, t) := hy
  rw [toSingleStepwise?, hdouble]
  exact congrArg some (Binary32.nearestScaled_eq h hround)

/-- The text of zero. -/
theorem spells_zero : Spells "0.0".toList 0 (-1) :=
  ⟨by decide, ⟨'0', ['.', '0'], rfl, by decide⟩, ⟨'.', by decide, by decide⟩,
    ⟨['0'], ['0'], 0⟩, by decide, by decide, by decide⟩

theorem comesTo?_zero : comesTo? 0 (-1) = some (0, -149) := by
  decide +kernel

/-- **The text of a finite number is a numeral with a point or an exponent, whose decimal fits a
word and comes back to the number.** -/
theorem exists_spells (h : parts x = .finite negative m e) : ∃ text d k,
    Layout.document.text x = signed negative text ∧ Spells text d k ∧ d < UInt64.size ∧
      comesTo? d k = some (m, e) := by
  rcases Nat.eq_zero_or_pos m with rfl | hm
  · refine ⟨_, 0, -1, ?_, spells_zero, by decide, ?_⟩
    · simp only [Layout.text, h]
      rfl
    · rw [Binary32.exponent_of_zero h, comesTo?_zero]
  · have hcanonical := Binary32.canonical_of_parts h hm
    have htext : Layout.document.text x = signed negative
        (Layout.document.decimalText (shortest true m e).1 (shortest true m e).2) := by
      simp only [Layout.text, h, if_neg hm.ne']
      rfl
    obtain ⟨hd, hdigits, -, -⟩ := (shortest_spec true hm hcanonical.least_le).bounds hm
      hcanonical.lt hcanonical.least_le hcanonical.le_greatest
    obtain ⟨hcomes, htenths⟩ := comesBack_shortest hcanonical
    rw [htext]
    generalize (shortest true m e).1 = d at hd hdigits hcomes htenths ⊢
    generalize (shortest true m e).2 = k at hcomes htenths ⊢
    rcases spells_decimalText hd k with hspells | ⟨hk, hshort, hspells⟩
    · exact ⟨_, d, k, rfl, hspells, hdigits.trans (by decide), hcomes⟩
    · -- a whole number below `10 ^ 13`, and a zero after the point
      have hlt : d * 10 ^ (k + 1).toNat < 10 ^ 14 := by
        have hlength : d < 10 ^ (Nat.toDigits 10 d).length :=
          (Nat.length_toDigits_le_iff (by decide) Nat.length_toDigits_pos).mp le_rfl
        calc d * 10 ^ (k + 1).toNat
            < 10 ^ (Nat.toDigits 10 d).length * 10 ^ (k + 1).toNat :=
              Nat.mul_lt_mul_of_pos_right hlength (by positivity)
          _ = 10 ^ ((Nat.toDigits 10 d).length + (k + 1).toNat) := (Nat.pow_add ..).symm
          _ ≤ 10 ^ 14 := Nat.pow_le_pow_right (by decide) (by omega)
      exact ⟨_, _, -1, rfl, hspells, hlt.trans (by decide), htenths hk hlt⟩

end Decimal

namespace Json

open Binary32 (parts isFinite)

variable {x : Float32}

/-- The numeral of a finite number. -/
theorem ofSingle_of_isFinite (h : isFinite x) : ∃ numeral : String, ofSingle x = .number numeral ∧
    isNumeral numeral.toList ∧ wholeNumber? numeral.toList = none ∧
      stepwise? numeral.toList = some x := by
  obtain ⟨negative, m, e, hparts⟩ := Binary32.exists_parts h
  obtain ⟨text, d, k, htext, hspells, hd, hcomes⟩ := Decimal.exists_spells hparts
  refine ⟨String.ofList (Decimal.Layout.document.text x), by simp only [ofSingle, hparts], ?_⟩
  rw [String.toList_ofList, htext]
  refine ⟨hspells.isNumeral negative, hspells.wholeNumber? negative, ?_⟩
  rw [stepwise?, hspells.gathered? hd, Option.bind_some,
    Decimal.toSingleStepwise?_eq hparts hcomes]

/-- What is not finite is written as `null`. -/
theorem ofSingle_of_not_isFinite (h : isFinite x = false) : ofSingle x = .null := by
  unfold isFinite at h
  unfold ofSingle
  cases hparts : parts x with
  | finite negative m e => simp [hparts] at h
  | infinite => rfl
  | nan => rfl

/-- **A finite number is read back from its numeral.** -/
theorem single?_ofSingle (h : isFinite x) : single? (ofSingle x) = some x := by
  obtain ⟨numeral, heq, -, hwhole, hstepwise⟩ := ofSingle_of_isFinite h
  rw [heq, single?, hwhole]
  exact hstepwise

/-- A number that is not finite is not read back, for `null` is no number. -/
theorem single?_ofSingle_of_not_isFinite (h : isFinite x = false) :
    single? (ofSingle x) = none := by
  rw [ofSingle_of_not_isFinite h]
  rfl

end Json

end SpatialGrammar
