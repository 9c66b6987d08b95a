/-
SpatialGrammar/Proofs/FullPeriod.lean

The states of the generator, zero apart, lie on one cycle.

The step is linear, so a polynomial in the step, with coefficients zero and one, may be applied to a
state.  Polynomials are written as numbers, whose binary digits are the coefficients, and are
multiplied modulo one of degree 128 (`Xoroshiro.modulus`) that gives zero when it is applied to
`Xoroshiro.base`.  So the state after a number of steps may be found by squaring
(`Xoroshiro.Code.value_power`), and the kernel can evaluate it even for very many steps.

After `2 ^ 128 - 1` steps the state has come back.  If it had come back earlier, the number of steps
would be a proper divisor, and it would have come back after a quotient by a prime factor; it has
not.  There are no more states but zero, so the cycle goes through all of them
(`Xoroshiro.exists_iterate_step_eq`): the generator has full period
(`Xoroshiro.minimalPeriod_step`).
-/
import Mathlib.Data.List.Prime
import Mathlib.Data.Nat.Bitwise
import Mathlib.Data.Set.Card
import Mathlib.Dynamics.PeriodicPts.Defs
import Mathlib.NumberTheory.LucasPrimality
import Mathlib.Tactic.NormNum.GCD
import Mathlib.Tactic.NormNum.Prime
import Mathlib.Tactic.ReduceModChar
import SpatialGrammar.Proofs.WordBits

namespace SpatialGrammar

namespace Xoroshiro

/-! ### Polynomials in a map -/

section

/-- The polynomial in `f` whose coefficients are the `n` low binary digits of `p`, applied to `x`.
It is written by the recursor, which the kernel evaluates fastest. -/
def polynomial {M : Type} [Zero M] [Add M] (f : M → M) (n : Nat) : Nat → M → M :=
  Nat.rec (fun _ _ => 0)
    (fun _ rest p x =>
      match p % 2 with
      | 0 => rest (p / 2) (f x)
      | _ + 1 => x + rest (p / 2) (f x)) n

/-- Maps that respect sums carry polynomials over. -/
theorem map_polynomial {M N : Type} [Zero M] [Add M] [Zero N] [Add N] {f : M → M} {g : N → N}
    (φ : M → N) (hzero : φ 0 = 0) (hadd : ∀ x y, φ (x + y) = φ x + φ y)
    (hφ : ∀ x, φ (f x) = g (φ x)) (n p : Nat) (x : M) :
    φ (polynomial f n p x) = polynomial g n p (φ x) := by
  induction n generalizing p x with
  | zero => exact hzero
  | succ n ih =>
    unfold polynomial at ih ⊢
    dsimp only
    split
    · rw [ih, hφ]
    · rw [hadd, ih, hφ]

variable {M : Type} [AddCommMonoid M] {f : M → M}

theorem polynomial_succ (n p : Nat) (x : M) :
    polynomial f (n + 1) p x = (if p % 2 = 1 then x else 0) + polynomial f n (p / 2) (f x) := by
  rcases Nat.mod_two_eq_zero_or_one p with hp | hp
  · rw [hp, if_neg Nat.zero_ne_one, zero_add]
    unfold polynomial
    dsimp only
    rw [hp]
  · rw [hp, if_pos rfl]
    unfold polynomial
    dsimp only
    rw [hp]

theorem polynomial_zero (n : Nat) (x : M) : polynomial f n 0 x = 0 := by
  induction n generalizing x with
  | zero => rfl
  | succ n ih =>
    rw [polynomial_succ, Nat.zero_div, ih]
    simp

theorem polynomial_one (n : Nat) (x : M) : polynomial f (n + 1) 1 x = x := by
  rw [polynomial_succ, polynomial_zero]
  simp

/-- Digits that are moved up by one place take one more step. -/
theorem polynomial_two_mul (n p : Nat) (x : M) :
    polynomial f (n + 1) (2 * p) x = polynomial f n p (f x) := by
  rw [polynomial_succ]
  simp

/-- The digit that is looked at last. -/
theorem polynomial_last (n p : Nat) (x : M) :
    polynomial f (n + 1) p x = polynomial f n p x + if p.testBit n then f^[n] x else 0 := by
  induction n generalizing p x with
  | zero =>
    rw [polynomial_succ]
    show _ + 0 = 0 + _
    rw [add_zero, zero_add]
    simp [Nat.testBit_zero]
  | succ n ih =>
    rw [polynomial_succ, ih, polynomial_succ n, add_assoc, Nat.testBit_succ,
      Function.iterate_succ_apply]

end

/-! ### Polynomials in the step -/

/-- Without carry, twice the same is nothing. -/
theorem add_self (s : Xoroshiro) : s + s = 0 := add_eq_zero_iff.mpr rfl

theorem polynomial_xor (f : Xoroshiro → Xoroshiro) (n p q : Nat) (s : Xoroshiro) :
    polynomial f n (p ^^^ q) s = polynomial f n p s + polynomial f n q s := by
  induction n generalizing p q s with
  | zero => exact (add_zero 0).symm
  | succ n ih =>
    rw [polynomial_succ, polynomial_succ, polynomial_succ, Nat.xor_div_two, ih]
    have hdigit : (if (p ^^^ q) % 2 = 1 then s else 0) =
        (if p % 2 = 1 then s else 0) + if q % 2 = 1 then s else 0 := by
      rcases Nat.mod_two_eq_zero_or_one p with hp | hp <;>
        rcases Nat.mod_two_eq_zero_or_one q with hq | hq <;>
        simp [Nat.xor_mod_two_eq, Nat.add_mod, hp, hq, add_self]
    rw [hdigit]
    exact add_add_add_comm _ _ _ _

/-- Steps may be made before or after a polynomial in them is applied. -/
theorem commute_polynomial (n p : Nat) : Function.Commute (polynomial step n p) step :=
  fun s => (map_polynomial step step_zero step_add (fun _ => rfl) n p s).symm

/-- The state to which polynomials are applied. -/
def base : Xoroshiro := ⟨0, 1⟩

/-- A polynomial of degree 128 by which the others are reduced. -/
def modulus : Nat := 0x100653ced7f29f88a5fd66762f0e1c001

/-- Applied to `base` it gives zero: 128 steps are as much as its other terms. -/
theorem iterate_step_base : step^[128] base = polynomial step 128 modulus base := by decide +kernel

/-- A polynomial of degree below 128, written as a number. -/
structure Code where
  digits : Nat

namespace Code

instance : Zero Code := ⟨⟨0⟩⟩

instance : Add Code := ⟨fun p q => ⟨p.digits ^^^ q.digits⟩⟩

/-- A polynomial times the step: the digits move up, and one that comes to
the place 128 is reduced. -/
def shift (p : Code) : Code := ⟨2 * p.digits ^^^ p.digits >>> 127 % 2 * modulus⟩

/-- The product of two polynomials. -/
def mul (p q : Code) : Code := polynomial shift 128 p.digits q

/-- As many steps as the power of two with the given exponent, found by squaring. -/
def square (j : Nat) : Code := Nat.rec ⟨2⟩ (fun _ p => mul p p) j

/-- As many steps as the `k` low binary digits of `n` say, the lowest of which counts `2 ^ j`. -/
def power (k : Nat) : Nat → Nat → Code :=
  Nat.rec (fun _ _ => ⟨1⟩)
    (fun _ rest j n =>
      match n % 2 with
      | 0 => rest (j + 1) (n / 2)
      | _ + 1 => mul (square j) (rest (j + 1) (n / 2))) k

/-- What a polynomial gives when it is applied to `base`. -/
def value (p : Code) : Xoroshiro := polynomial step 128 p.digits base

theorem value_zero : value 0 = 0 := polynomial_zero 128 base

theorem value_one : value ⟨1⟩ = base := polynomial_one 127 base

theorem value_add (p q : Code) : value (p + q) = value p + value q :=
  polynomial_xor step 128 p.digits q.digits base

theorem value_shift (p : Code) : value (shift p) = step (value p) := by
  -- the digit in the place 128 stands for 128 steps, and so does the modulus
  have hreduced : polynomial step 128 (p.digits >>> 127 % 2 * modulus) base =
      if (2 * p.digits).testBit 128 then step^[128] base else 0 := by
    rw [Nat.testBit_succ, Nat.mul_div_cancel_left _ Nat.two_pos, Nat.testBit_eq_decide_div_mod_eq,
      ← Nat.shiftRight_eq_div_pow]
    rcases Nat.mod_two_eq_zero_or_one (p.digits >>> 127) with h | h
    · rw [h, Nat.zero_mul, polynomial_zero]
      rfl
    · rw [h, Nat.one_mul, ← iterate_step_base]
      rfl
  have hlast := polynomial_last (f := step) 128 (2 * p.digits) base
  rw [polynomial_two_mul, commute_polynomial] at hlast
  calc value (shift p)
      = polynomial step 128 (2 * p.digits) base +
          polynomial step 128 (p.digits >>> 127 % 2 * modulus) base := polynomial_xor ..
    _ = step (value p) := by rw [hreduced, ← hlast]; rfl

theorem value_mul (p q : Code) : value (mul p q) = polynomial step 128 p.digits (value q) :=
  map_polynomial value value_zero value_add value_shift 128 p.digits q

/-- If a polynomial does as much as some steps, it may be multiplied by steps. -/
theorem value_mul_of_value {p q : Code} {m n : Nat} (hp : value p = step^[m] base)
    (hq : value q = step^[n] base) : value (mul p q) = step^[m + n] base := by
  calc value (mul p q) = polynomial step 128 p.digits (step^[n] base) := by rw [value_mul, hq]
    _ = step^[n] (value p) := (commute_polynomial _ _).iterate_right _ _
    _ = step^[m + n] base := by rw [hp, ← Function.iterate_add_apply, Nat.add_comm]

theorem value_square (j : Nat) : value (square j) = step^[2 ^ j] base := by
  induction j with
  | zero =>
    exact (polynomial_two_mul (f := step) 127 1 base).trans (polynomial_one 126 _)
  | succ j ih =>
    have hsum : 2 ^ j + 2 ^ j = 2 ^ (j + 1) := by rw [Nat.pow_succ, Nat.mul_two]
    exact (value_mul_of_value ih ih).trans (by rw [hsum])

/-- **The number of steps is read off its binary digits.** -/
theorem value_power {k n : Nat} (h : n < 2 ^ k) (j : Nat) :
    value (power k j n) = step^[2 ^ j * n] base := by
  induction k generalizing j n with
  | zero =>
    obtain rfl : n = 0 := Nat.lt_one_iff.mp h
    exact value_one
  | succ k ih =>
    have hhalf : n / 2 < 2 ^ k := Nat.div_lt_of_lt_mul (Nat.pow_succ' ▸ h)
    have hsteps : 2 ^ j * n = 2 ^ (j + 1) * (n / 2) + 2 ^ j * (n % 2) := by
      conv_lhs => rw [← Nat.div_add_mod n 2]
      rw [Nat.mul_add, Nat.pow_succ, Nat.mul_assoc]
    rw [hsteps]
    rcases Nat.mod_two_eq_zero_or_one n with hn | hn
    · have hpower : power (k + 1) j n = power k (j + 1) (n / 2) := by
        unfold power
        dsimp only
        rw [hn]
      rw [hpower, ih hhalf, hn]
      rfl
    · have hpower : power (k + 1) j n = mul (square j) (power k (j + 1) (n / 2)) := by
        unfold power
        dsimp only
        rw [hn]
      rw [hpower, value_mul_of_value (value_square j) (ih hhalf _), hn, Nat.mul_one, Nat.add_comm]

end Code

/-! ### The cycle -/

open Function

/-- How many states there are but zero. -/
def period : Nat := 2 ^ 128 - 1

/-- The prime factors of the period, each of which occurs once. -/
def periodPrimes : List Nat := [3, 5, 17, 257, 641, 65537, 274177, 6700417, 67280421310721]

/-- Lucas's test with three as the root. -/
theorem prime_67280421310721 : Nat.Prime 67280421310721 := by
  have hfactors : ∀ q ∈ [2, 5, 47, 373, 2998279], Prime q := by
    simp only [List.forall_mem_cons, ← Nat.prime_iff]
    refine ⟨?_, ?_, ?_, ?_, ?_, by simp⟩ <;> norm_num1
  have hprod : 67280421310721 - 1 ∣ [2, 5, 47, 373, 2998279].prod ^ 8 := by decide
  apply lucas_primality 67280421310721 3
  · norm_num1
    reduce_mod_char
  · intro q hq hdvd
    have hmem : q ∈ [2, 5, 47, 373, 2998279] :=
      mem_list_primes_of_dvd_prod hq.prime hfactors (hq.dvd_of_dvd_pow (hdvd.trans hprod))
    fin_cases hmem <;> norm_num1 <;> reduce_mod_char <;> decide

theorem mem_periodPrimes {q : Nat} (hq : q.Prime) (hdvd : q ∣ period) : q ∈ periodPrimes := by
  have hprimes : ∀ r ∈ periodPrimes, Prime r := by
    simp only [periodPrimes, List.forall_mem_cons, ← Nat.prime_iff]
    refine ⟨?_, ?_, ?_, ?_, ?_, ?_, ?_, ?_, prime_67280421310721, by simp⟩ <;> norm_num1
  have hprod : periodPrimes.prod = period := by decide
  exact mem_list_primes_of_dvd_prod hq.prime hprimes (hprod ▸ hdvd)

theorem iterate_period_base : step^[period] base = base := by
  -- one more step than the period counts is a power of two, for which squaring is enough
  have hperiod : period + 1 = 2 ^ 128 := by decide
  have hvalue : (Code.square 128).value = step base := by decide +kernel
  rw [Code.value_square, ← hperiod] at hvalue
  apply step_injective
  exact (iterate_succ_apply' step period base).symm.trans hvalue

/-- After a quotient by a prime factor the state has not come back. -/
theorem iterate_quotient_base {q : Nat} (hq : q ∈ periodPrimes) :
    step^[period / q] base ≠ base := by
  have hvalues : ∀ q ∈ periodPrimes, (Code.power 128 0 (period / q)).value ≠ base := by
    decide +kernel
  have hvalue := hvalues q hq
  rwa [Code.value_power ((Nat.div_le_self _ _).trans_lt (by decide)), Nat.pow_zero,
    Nat.one_mul] at hvalue

theorem minimalPeriod_base : minimalPeriod step base = period := by
  have hdvd : minimalPeriod step base ∣ period :=
    IsPeriodicPt.minimalPeriod_dvd iterate_period_base
  obtain ⟨m, hm⟩ := hdvd
  by_contra hne
  have hm1 : m ≠ 1 := by
    rintro rfl
    exact hne (by rw [hm, Nat.mul_one])
  obtain ⟨q, hq, k, rfl⟩ := Nat.exists_prime_and_dvd hm1
  have hquotient : period / q = minimalPeriod step base * k := by
    rw [hm, Nat.mul_left_comm]
    exact Nat.mul_div_cancel_left _ hq.pos
  have hback : IsPeriodicPt step (period / q) base := by
    rw [hquotient]
    exact (isPeriodicPt_minimalPeriod step base).mul_const k
  exact iterate_quotient_base (mem_periodPrimes hq ⟨_, by rw [hm, Nat.mul_left_comm]⟩) hback

/-- There is one more state than the period counts. -/
theorem card_states : Nat.card Xoroshiro = period + 1 := by
  rw [Nat.card_congr equivFin, Nat.card_prod, Nat.card_fin]
  decide

/-- **Every state but zero lies on the cycle of `base`.** -/
theorem exists_iterate_step_base {s : Xoroshiro} (hs : s ≠ 0) :
    ∃ k < period, step^[k] base = s := by
  -- the states on the cycle are all different and none is zero, so there are as many as can be
  have hcycle : ((step^[·] base) '' Set.Iio period).ncard = period := by
    have hinj : Set.InjOn (step^[·] base) (Set.Iio period) :=
      minimalPeriod_base ▸ iterate_injOn_Iio_minimalPeriod
    rw [hinj.ncard_image, Set.ncard_eq_toFinset_card', Set.toFinset_Iio, Nat.card_Iio]
  have hnonzero : ({0}ᶜ : Set Xoroshiro).ncard = period := by
    rw [Set.ncard_compl, Set.ncard_singleton, card_states, Nat.add_sub_cancel]
  have hsubset : (step^[·] base) '' Set.Iio period ⊆ {0}ᶜ := by
    rintro _ ⟨k, -, rfl⟩ hzero
    have hbase : base = 0 :=
      (step_injective.iterate k).eq_iff' (iterate_fixed step_zero k) |>.mp hzero
    exact absurd hbase (by decide)
  have hall := Set.eq_of_subset_of_ncard_le hsubset (hnonzero.trans hcycle.symm).le
  have hmem : s ∈ (step^[·] base) '' Set.Iio period := hall ▸ hs
  exact hmem

/-- **From every state but zero the steps lead back to it only after all the others.** -/
theorem minimalPeriod_step {s : Xoroshiro} (hs : s ≠ 0) : minimalPeriod step s = period := by
  obtain ⟨k, -, rfl⟩ := exists_iterate_step_base hs
  rw [minimalPeriod_apply_iterate ⟨period, by decide, iterate_period_base⟩, minimalPeriod_base]

/-- **From every state but zero the steps lead to every other.** -/
theorem exists_iterate_step_eq {s t : Xoroshiro} (hs : s ≠ 0) (ht : t ≠ 0) :
    ∃ k < period, step^[k] s = t := by
  obtain ⟨i, hi, rfl⟩ := exists_iterate_step_base hs
  obtain ⟨j, -, rfl⟩ := exists_iterate_step_base ht
  refine ⟨(period - i + j) % period, Nat.mod_lt _ (by decide), ?_⟩
  have hround : period - i + j + i = period + j := by omega
  rw [← minimalPeriod_step hs, iterate_mod_minimalPeriod_eq, minimalPeriod_step hs,
    ← iterate_add_apply, hround, Nat.add_comm, iterate_add_apply, iterate_period_base]

/-- Zero is the only state that a step keeps. -/
theorem step_eq_self_iff {s : Xoroshiro} : step s = s ↔ s = 0 := by
  constructor
  · intro h
    by_contra hs
    have hperiod := minimalPeriod_step hs
    rw [minimalPeriod_eq_one_iff_isFixedPt.mpr h] at hperiod
    exact absurd hperiod (by decide)
  · rintro rfl
    exact step_zero

end Xoroshiro

end SpatialGrammar
