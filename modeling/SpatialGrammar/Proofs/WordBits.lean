/-
SpatialGrammar/Proofs/WordBits.lean

What is done to the bits of a word can be undone.

A word is told from its 64 bits (`Xoroshiro.eq_of_testBit_eq`), and a rotation only moves
them.  A word that is mixed with its own shift is told from the result as well: two words
with the same result differ by a word that is its own shift, and only zero is.

States of the generator are added bit by bit, without carry.  The step of the generator
respects these sums (`Xoroshiro.step_add`), so that it is injective as soon as it sends no
state but zero to zero (`Xoroshiro.step_eq_zero_iff`).
-/
import Mathlib.Data.Finite.Prod
import Mathlib.Data.UInt
import SpatialGrammar.Random.Xoroshiro

namespace SpatialGrammar

namespace Xoroshiro

/-! ### Bits -/

theorem testBit_of_le (x : UInt64) {i : Nat} (hi : 64 ≤ i) : x.toNat.testBit i = false := by
  apply Nat.testBit_lt_two_pow
  exact x.toNat_lt.trans_le (Nat.pow_le_pow_right Nat.two_pos hi)

/-- A word is told from its bits. -/
theorem eq_of_testBit_eq {x y : UInt64} (h : ∀ i < 64, x.toNat.testBit i = y.toNat.testBit i) :
    x = y := by
  apply UInt64.toNat_inj.mp
  apply Nat.eq_of_testBit_eq
  intro i
  rcases Nat.lt_or_ge i 64 with hi | hi
  · exact h i hi
  · rw [testBit_of_le x hi, testBit_of_le y hi]

section

variable {k : UInt64} (hk : 0 < k.toNat) (hk' : k.toNat < 64)

include hk hk'

/-- A rotation moves each bit by the same number of places, round and round. -/
theorem testBit_rotateLeft (x : UInt64) {i : Nat} (hi : i < 64) :
    (rotateLeft x k).toNat.testBit i = x.toNat.testBit ((i + (64 - k.toNat)) % 64) := by
  have hrest : ((64 : UInt64) - k).toNat = 64 - k.toNat :=
    UInt64.toNat_sub_of_le _ _ (UInt64.le_iff_toNat_le.mpr hk'.le)
  unfold rotateLeft
  rw [UInt64.toNat_or, UInt64.toNat_shiftLeft, UInt64.toNat_shiftRight, hrest,
    Nat.mod_eq_of_lt hk', Nat.mod_eq_of_lt (Nat.sub_lt (by decide) hk), Nat.testBit_or,
    Nat.testBit_mod_two_pow, Nat.testBit_shiftLeft, Nat.testBit_shiftRight]
  -- a bit comes from the high end by the shift to the right, or from below by that to the left
  rcases Nat.lt_or_ge i k.toNat with h | h
  · have hplace : (i + (64 - k.toNat)) % 64 = 64 - k.toNat + i := by omega
    simp [hplace, h]
  · have hplace : (i + (64 - k.toNat)) % 64 = i - k.toNat := by omega
    have hover : x.toNat.testBit (64 - k.toNat + i) = false := testBit_of_le x (by omega)
    simp [hplace, hover, h, hi]

theorem rotateLeft_xor (x y : UInt64) :
    rotateLeft (x ^^^ y) k = rotateLeft x k ^^^ rotateLeft y k := by
  apply eq_of_testBit_eq
  intro i hi
  simp only [UInt64.toNat_xor, Nat.testBit_xor, testBit_rotateLeft hk hk' _ hi]

theorem rotateLeft_injective : Function.Injective fun x => rotateLeft x k := by
  intro x y h
  apply eq_of_testBit_eq
  intro i hi
  -- the place to which the bit is moved
  have hplace : ((i + k.toNat) % 64 + (64 - k.toNat)) % 64 = i := by omega
  have hlt : (i + k.toNat) % 64 < 64 := Nat.mod_lt _ (by decide)
  have hx := testBit_rotateLeft hk hk' x hlt
  have hy := testBit_rotateLeft hk hk' y hlt
  rw [hplace] at hx hy
  rw [← hx, ← hy]
  exact congrArg (fun z => z.toNat.testBit ((i + k.toNat) % 64)) h

/-- A word is told from its sum with its own shift. -/
theorem xor_shiftRight_injective : Function.Injective fun z : UInt64 => z ^^^ (z >>> k) := by
  intro z w h
  have hshift : z ^^^ w = (z ^^^ w) >>> k := by
    rw [UInt64.shiftRight_xor]
    apply UInt64.xor_eq_zero_iff.mp
    calc z ^^^ w ^^^ (z >>> k ^^^ w >>> k) = z ^^^ z >>> k ^^^ (w ^^^ w >>> k) := by ac_rfl
      _ = 0 := UInt64.xor_eq_zero_iff.mpr h
  have hnat := congrArg UInt64.toNat hshift
  rw [UInt64.toNat_shiftRight, Nat.mod_eq_of_lt hk', Nat.shiftRight_eq_div_pow] at hnat
  apply UInt64.xor_eq_zero_iff.mp
  apply UInt64.toNat_inj.mp
  -- no number but zero is kept by a division
  by_contra hne
  exact (Nat.div_lt_self (Nat.pos_of_ne_zero hne) (Nat.one_lt_two_pow hk.ne')).ne' hnat

end

/-- A word is told from its product with a unit. -/
theorem mul_unit_injective {c : UInt64} (inverse : UInt64) (h : c * inverse = 1) :
    Function.Injective fun z : UInt64 => z * c := by
  intro z w hzw
  calc z = z * c * inverse := by rw [mul_assoc, h, mul_one]
    _ = w * c * inverse := congrArg (· * inverse) hzw
    _ = w := by rw [mul_assoc, h, mul_one]

/-! ### Sums of states -/

instance : Zero Xoroshiro := ⟨⟨0, 0⟩⟩

instance : Add Xoroshiro := ⟨fun s t => ⟨s.s0 ^^^ t.s0, s.s1 ^^^ t.s1⟩⟩

instance : AddCommMonoid Xoroshiro where
  add_assoc _ _ _ := congrArg₂ mk (UInt64.xor_assoc ..) (UInt64.xor_assoc ..)
  zero_add _ := congrArg₂ mk UInt64.zero_xor UInt64.zero_xor
  add_zero _ := congrArg₂ mk UInt64.xor_zero UInt64.xor_zero
  add_comm _ _ := congrArg₂ mk (UInt64.xor_comm ..) (UInt64.xor_comm ..)
  nsmul := nsmulRec

theorem add_eq_zero_iff {s t : Xoroshiro} : s + t = 0 ↔ s = t := by
  obtain ⟨a, b⟩ := s
  obtain ⟨c, d⟩ := t
  show mk (a ^^^ c) (b ^^^ d) = mk 0 0 ↔ mk a b = mk c d
  simp

/-! ### The step -/

theorem step_add (s t : Xoroshiro) : step (s + t) = step s + step t := by
  have hsum : s.s1 ^^^ t.s1 ^^^ (s.s0 ^^^ t.s0) = s.s1 ^^^ s.s0 ^^^ (t.s1 ^^^ t.s0) := by ac_rfl
  apply congrArg₂ mk
  · show rotateLeft (s.s0 ^^^ t.s0) 55 ^^^ (s.s1 ^^^ t.s1 ^^^ (s.s0 ^^^ t.s0)) ^^^
      (s.s1 ^^^ t.s1 ^^^ (s.s0 ^^^ t.s0)) <<< 14 = _
    rw [hsum, rotateLeft_xor (by decide) (by decide), UInt64.shiftLeft_xor]
    show _ = rotateLeft s.s0 55 ^^^ (s.s1 ^^^ s.s0) ^^^ (s.s1 ^^^ s.s0) <<< 14 ^^^
      (rotateLeft t.s0 55 ^^^ (t.s1 ^^^ t.s0) ^^^ (t.s1 ^^^ t.s0) <<< 14)
    ac_rfl
  · show rotateLeft (s.s1 ^^^ t.s1 ^^^ (s.s0 ^^^ t.s0)) 36 = _
    rw [hsum, rotateLeft_xor (by decide) (by decide)]
    rfl

theorem step_zero : step 0 = 0 := by decide

/-- **No other state is sent to zero.** -/
theorem step_eq_zero_iff {s : Xoroshiro} : step s = 0 ↔ s = 0 := by
  constructor
  · intro h
    obtain ⟨h0, h1⟩ := mk.inj h
    -- the second word shows the sum of the two, and the first one what is left
    have hsum : s.s1 ^^^ s.s0 = 0 :=
      rotateLeft_injective (k := 36) (by decide) (by decide) (h1.trans (by decide))
    rw [hsum] at h0
    have hfirst : s.s0 = 0 := by
      apply rotateLeft_injective (k := 55) (by decide) (by decide)
      exact (by simpa using h0 : rotateLeft s.s0 55 = 0).trans (by decide)
    rw [hfirst, UInt64.xor_zero] at hsum
    exact congrArg₂ mk hfirst hsum
  · rintro rfl
    exact step_zero

theorem step_injective : Function.Injective step := by
  intro s t h
  apply add_eq_zero_iff.mp
  apply step_eq_zero_iff.mp
  rw [step_add]
  exact add_eq_zero_iff.mpr h

/-- A state is a pair of words, and a word is a number below `2 ^ 64`. -/
def equivFin : Xoroshiro ≃ Fin UInt64.size × Fin UInt64.size where
  toFun s := (s.s0.toFin, s.s1.toFin)
  invFun p := ⟨.ofFin p.1, .ofFin p.2⟩
  left_inv _ := rfl
  right_inv _ := rfl

instance : Finite Xoroshiro := .of_equiv _ equivFin.symm

/-- **Each state comes after exactly one state.** -/
theorem step_bijective : Function.Bijective step :=
  Finite.injective_iff_bijective.mp step_injective

end Xoroshiro

end SpatialGrammar
