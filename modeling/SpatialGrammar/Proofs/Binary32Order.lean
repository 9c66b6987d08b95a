/-
SpatialGrammar/Proofs/Binary32Order.lean

The little of the order of single-precision numbers that a draw relies on.

Adding zero changes no comparison, and a product of numbers that are not negative is
not below zero.  Both hold of every number there is, infinities and the number that is
no number included, because both are read from signs and from how a number is packed
into bits and unpacked again; neither rounds.

How packing and unpacking undo each other is known to the library, but nothing smaller than
the whole of it reaches those lemmas.  So this module imports it whole, and those that need
what is known of the bits of a number import this one.
-/
import Mathlib
import SpatialGrammar.Numeric.Binary32

namespace SpatialGrammar.Binary32

open Float.Model (Format UnpackedFloat)
open Float.Model.UnpackedFloat

/-! ### The order -/

/-- The unpacked form of a number. -/
def unpacked (x : Float32) : UnpackedFloat := x.toModel.unpack

theorem lt_iff {x y : Float32} : x < y ↔ (unpacked x).compare (unpacked y) = some .lt := by
  show decide ((x.toModel.unpack.compare y.toModel.unpack == some .lt) = true) = true ↔ _
  simp [unpacked]

theorem le_iff {x y : Float32} :
    x ≤ y ↔ ∃ o, (unpacked x).compare (unpacked y) = some o ∧ o.isLE := by
  show decide (((x.toModel.unpack.compare y.toModel.unpack).any (·.isLE)) = true) = true ↔ _
  simp [unpacked, Option.any_eq_true]

theorem unpacked_zero : unpacked 0 = .zero .positive := by
  rfl

theorem unpacked_add (x y : Float32) : unpacked (x + y) =
    UnpackedFloat.unpack Format.binary32
      (pack Format.binary32 (add Format.binary32 (unpacked x) (unpacked y))) := by
  rfl

theorem unpacked_mul (x y : Float32) : unpacked (x * y) =
    UnpackedFloat.unpack Format.binary32
      (pack Format.binary32 (mul Format.binary32 (unpacked x) (unpacked y))) := by
  rfl

/-- A number survives packing. -/
theorem unpack_pack_unpacked (x : Float32) :
    UnpackedFloat.unpack Format.binary32 (pack Format.binary32 (unpacked x)) = unpacked x :=
  congrArg (UnpackedFloat.unpack Format.binary32) (pack_unpack_of_valid x.toModel.valid)

/-- Adding zero changes a number at most in the sign of a zero. -/
theorem add_zero_cases (y : UnpackedFloat) :
    add Format.binary32 y (.zero .positive) = y ∨
      ∃ s, y = .zero s ∧ add Format.binary32 y (.zero .positive) = .zero .positive := by
  cases y with
  | notANumber => exact .inl rfl
  | infinity s => exact .inl rfl
  | zero s => exact .inr ⟨s, rfl, by cases s <;> rfl⟩
  | finite s m e hm => exact .inl rfl

/-- No comparison goes by the sign of a zero. -/
theorem compare_zero (x : UnpackedFloat) (s s' : Sign) :
    x.compare (.zero s) = x.compare (.zero s') := by
  cases x with
  | notANumber => rfl
  | infinity t => cases t <;> rfl
  | zero t => rfl
  | finite t m e hm => cases t <;> rfl

/-- **Adding zero changes no comparison.** -/
theorem lt_of_lt_add_zero {x y : Float32} (h : x < y + 0) : x < y := by
  rw [lt_iff, unpacked_add, unpacked_zero] at h
  rw [lt_iff]
  rcases add_zero_cases (unpacked y) with ha | ⟨s, hs, ha⟩
  · rwa [ha, unpack_pack_unpacked] at h
  · rw [ha, ← unpacked_zero, unpack_pack_unpacked, unpacked_zero] at h
    rw [hs, compare_zero _ s .positive]
    exact h

/-- A number that is at least zero is not below it. -/
theorem not_lt_zero {x : Float32} (h : 0 ≤ x) : ¬ x < 0 := by
  rw [le_iff, unpacked_zero] at h
  rw [lt_iff, unpacked_zero]
  obtain ⟨o, ho, hle⟩ := h
  intro hlt
  cases hc : unpacked x with
  | notANumber => rw [hc] at ho; cases ho
  | infinity s =>
    rw [hc] at ho hlt
    cases s with
    | positive => cases hlt
    | negative => cases ho; cases hle
  | zero s => rw [hc] at hlt; cases hlt
  | finite s m e hm =>
    rw [hc] at ho hlt
    cases s with
    | positive => cases hlt
    | negative => cases ho; cases hle

/-! ### Products that are not negative -/

/-- Bits of positive sign are not those of a number below zero. -/
theorem not_unpack_packComponents_lt (e : BitVec Format.binary32.exponentBits)
    (m : BitVec Format.binary32.mantissaBitsWithoutImplicit) :
    (UnpackedFloat.unpack Format.binary32 (packComponents Format.binary32 .positive e m)).compare
      (.zero .positive) ≠ some .lt := by
  unfold UnpackedFloat.unpack
  simp only [unpackSign_packComponents, Sign.ofBitVec_toBitVec]
  split
  · split <;> simp [UnpackedFloat.compare]
  · split
    · split <;> simp [UnpackedFloat.compare]
    · simp [UnpackedFloat.compare]

/-- Packing keeps the sign. -/
theorem not_pack_finite_lt (m : Nat) (e : Int) (hm : 0 < m) :
    (UnpackedFloat.unpack Format.binary32
      (pack Format.binary32 (.finite .positive m e hm))).compare (.zero .positive) ≠ some .lt := by
  have hcomponents : ∃ e' m', pack Format.binary32 (.finite .positive m e hm) =
      packComponents Format.binary32 .positive e' m' := by
    unfold pack
    dsimp only
    split
    · exact ⟨_, _, rfl⟩
    · split
      · exact ⟨_, _, rfl⟩
      · exact ⟨_, _, rfl⟩
  obtain ⟨e', m', h⟩ := hcomponents
  rw [h]
  exact not_unpack_packComponents_lt e' m'

/-- A zero is not below zero, whatever its sign. -/
theorem not_pack_zero_lt (s : Sign) :
    (UnpackedFloat.unpack Format.binary32 (pack Format.binary32 (.zero s))).compare
      (.zero .positive) ≠ some .lt := by
  cases s with
  | positive => exact not_unpack_packComponents_lt _ _
  | negative => decide

/-- Rounding keeps the sign. -/
theorem roundWithAccuracy_cases (s : Sign) (m : Nat) (e : Int) (a : Accuracy) :
    roundWithAccuracy Format.binary32 s m e a = .zero s ∨
      ∃ m' e' hm', roundWithAccuracy Format.binary32 s m e a = .finite s m' e' hm' := by
  unfold roundWithAccuracy
  dsimp only
  split
  · exact .inl rfl
  · next h => exact .inr ⟨_, _, Nat.pos_of_ne_zero h, rfl⟩

/-- **A product of a number that is not negative and one that is not at most zero is not below
zero.**  The second factor may be no number. -/
theorem not_mul_lt_zero {x y : Float32} (hx : 0 ≤ x) (hy : ¬ y ≤ 0) : ¬ x * y < 0 := by
  rw [le_iff, unpacked_zero] at hx hy
  rw [lt_iff, unpacked_mul, unpacked_zero]
  obtain ⟨o, ho, hle⟩ := hx
  -- of the ten kinds of numbers these are the ones the factors may be of
  have hx : unpacked x = .infinity .positive ∨ (∃ s, unpacked x = .zero s) ∨
      ∃ m e hm, unpacked x = .finite .positive m e hm := by
    cases hc : unpacked x with
    | notANumber => rw [hc] at ho; cases ho
    | infinity s =>
      cases s with
      | positive => exact .inl rfl
      | negative => rw [hc] at ho; cases ho; cases hle
    | zero s => exact .inr (.inl ⟨s, rfl⟩)
    | finite s m e hm =>
      cases s with
      | positive => exact .inr (.inr ⟨m, e, hm, rfl⟩)
      | negative => rw [hc] at ho; cases ho; cases hle
  have hy : unpacked y = .notANumber ∨ unpacked y = .infinity .positive ∨
      ∃ m e hm, unpacked y = .finite .positive m e hm := by
    cases hc : unpacked y with
    | notANumber => exact .inl rfl
    | infinity s =>
      cases s with
      | positive => exact .inr (.inl rfl)
      | negative => exact absurd ⟨.lt, by rw [hc]; rfl, rfl⟩ hy
    | zero s => exact absurd ⟨.eq, by rw [hc]; rfl, rfl⟩ hy
    | finite s m e hm =>
      cases s with
      | positive => exact .inr (.inr ⟨m, e, hm, rfl⟩)
      | negative => exact absurd ⟨.lt, by rw [hc]; rfl, rfl⟩ hy
  have hnan : (UnpackedFloat.unpack Format.binary32
      (pack Format.binary32 .notANumber)).compare (.zero .positive) ≠ some .lt := by decide
  have hinf : (UnpackedFloat.unpack Format.binary32
      (pack Format.binary32 (.infinity .positive))).compare (.zero .positive) ≠ some .lt := by
    decide
  rcases hx with hx | ⟨s, hx⟩ | ⟨m, e, hm, hx⟩ <;>
    rcases hy with hy | hy | ⟨m', e', hm', hy⟩ <;> rw [hx, hy]
  · exact hnan
  · exact hinf
  · exact hinf
  · exact hnan
  · exact hnan
  · exact not_pack_zero_lt _
  · exact hnan
  · exact hinf
  · rcases roundWithAccuracy_cases .positive (m * m') (e + e') .exact with h | ⟨_, _, hm'', h⟩
    · show (UnpackedFloat.unpack Format.binary32 (pack Format.binary32
        (roundWithAccuracy Format.binary32 .positive (m * m') (e + e') .exact))).compare _ ≠ _
      rw [h]
      exact not_pack_zero_lt _
    · show (UnpackedFloat.unpack Format.binary32 (pack Format.binary32
        (roundWithAccuracy Format.binary32 .positive (m * m') (e + e') .exact))).compare _ ≠ _
      rw [h]
      exact not_pack_finite_lt _ _ hm''

/-- **The larger of zero and a number that is not positive is zero**, also if that is no number. -/
theorem greatest_zero {x : Float32} (h : ¬ 0 < x) : greatest x 0 = 0 := by
  have hzero : (0 : Float32).isNaN = false := by rfl
  unfold greatest
  rw [hzero]
  split
  · rfl
  · next hnan =>
    rw [lt_iff, unpacked_zero] at h
    have hnan : ¬(unpacked x).isNaN = true := hnan
    rw [isNaN_iff] at hnan
    have hle : x ≤ 0 := by
      rw [le_iff, unpacked_zero]
      cases hc : unpacked x with
      | notANumber => exact absurd hc hnan
      | infinity s =>
        cases s with
        | positive => exact absurd (by rw [hc]; rfl) h
        | negative => exact ⟨.lt, rfl, rfl⟩
      | zero s => exact ⟨.eq, rfl, rfl⟩
      | finite s m e hm =>
        cases s with
        | positive => exact absurd (by rw [hc]; rfl) h
        | negative => exact ⟨.lt, rfl, rfl⟩
    simp [hle]

end SpatialGrammar.Binary32
