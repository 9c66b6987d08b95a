/-
SpatialGrammar/Proofs/Streams.lean

Streams of words that are drawn from different seeds.

The state after `n` words is that after `n` steps (`Xoroshiro.after`).  A step can be undone,
so two streams that ever come to the same state after the same number of words have begun in the
same state, and a stream that has not begun at zero never comes there.  What is left is the
beginning: the mixing of a word can be undone as well, and it sends no word but zero to zero
(`Xoroshiro.mix_eq_zero_iff`), so that a seed can be told from the first word of its state and no
seed leads to the state that is replaced.
-/
import SpatialGrammar.Proofs.FullPeriod

namespace SpatialGrammar

namespace Xoroshiro

/-! ### Seeds -/

theorem mix_injective : Function.Injective mix := by
  -- both factors are odd
  have hfirst : Function.Injective fun z : UInt64 => (z ^^^ (z >>> 30)) * 0xbf58476d1ce4e5b9 := by
    apply (mul_unit_injective 0x96de1b173f119089 (by decide)).comp
    exact xor_shiftRight_injective (by decide) (by decide)
  have hsecond : Function.Injective fun z : UInt64 => (z ^^^ (z >>> 27)) * 0x94d049bb133111eb := by
    apply (mul_unit_injective 0x319642b2d24d8ec3 (by decide)).comp
    exact xor_shiftRight_injective (by decide) (by decide)
  exact (xor_shiftRight_injective (by decide) (by decide)).comp (hsecond.comp hfirst)

theorem mix_eq_zero_iff {z : UInt64} : mix z = 0 ↔ z = 0 :=
  mix_injective.eq_iff' (by decide)

/-- Two words one golden step apart are not both zero, so nothing is replaced in the state for a
seed. -/
theorem ofSeed_eq (seed : UInt64) :
    ofSeed seed = ⟨mix (seed + golden), mix (seed + golden + golden)⟩ := by
  apply if_neg
  rintro ⟨hfirst, hsecond⟩
  rw [mix_eq_zero_iff] at hfirst hsecond
  rw [hfirst] at hsecond
  exact absurd hsecond (by decide)

/-- **A seed can be told from its state.** -/
theorem ofSeed_injective : Function.Injective ofSeed := by
  intro seed seed' h
  rw [ofSeed_eq, ofSeed_eq] at h
  exact add_right_cancel (mix_injective (mk.inj h).1)

theorem ofWords_ne_zero (a b : UInt64) : ofWords a b ≠ 0 := by
  unfold ofWords
  split
  · decide
  · next h =>
    intro hzero
    exact h (mk.inj hzero)

theorem ofSeed_ne_zero (seed : UInt64) : ofSeed seed ≠ 0 := ofWords_ne_zero _ _

/-! ### Streams -/

/-- The state after the given number of words have been drawn. -/
def after (n : Nat) (s : Xoroshiro) : Xoroshiro := (fun t => t.next.2)^[n] s

theorem after_eq (n : Nat) : after n = step^[n] := rfl

theorem after_injective (n : Nat) : Function.Injective (after n) := step_injective.iterate n

theorem after_eq_zero_iff {n : Nat} {s : Xoroshiro} : after n s = 0 ↔ s = 0 :=
  (after_injective n).eq_iff' (Function.iterate_fixed step_zero n)

/-- **Streams never meet and never die out.**  States that come after the same number of words
from two seeds are the same only if the seeds are, and no state that comes after words from a
seed, or from a pair of them, is zero.  For the step sends different states to different states
and reaches all of them, it sends no state but zero to zero and keeps no other; and different
seeds have different states. -/
theorem streams_apart :
    (∀ (seed seed' : UInt64) (n : Nat),
      after n (ofSeed seed) = after n (ofSeed seed') → seed = seed') ∧
    (∀ (seed : UInt64) (n : Nat), after n (ofSeed seed) ≠ 0) ∧
    (∀ (a b : UInt64) (n : Nat), after n (ofWords a b) ≠ 0) ∧
    Function.Bijective (fun s : Xoroshiro => s.next.2) ∧
    (∀ s : Xoroshiro, s.next.2 = 0 ↔ s = 0) ∧
    (∀ s : Xoroshiro, s.next.2 = s ↔ s = 0) ∧
    Function.Injective ofSeed := by
  refine ⟨?_, ?_, ?_, step_bijective, fun s => step_eq_zero_iff, fun s => step_eq_self_iff,
    ofSeed_injective⟩
  · intro seed seed' n h
    exact ofSeed_injective (after_injective n h)
  · intro seed n h
    exact ofSeed_ne_zero seed (after_eq_zero_iff.mp h)
  · intro a b n h
    exact ofWords_ne_zero a b (after_eq_zero_iff.mp h)

end Xoroshiro

end SpatialGrammar
