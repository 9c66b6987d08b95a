/-
SpatialGrammar/Proofs/ExactNumbers.lean

Geometry read over the real numbers.

The formulas of the geometry are written for any `Scalar`.  Over the reals, where
nothing is rounded, they say what is meant by them.
-/
import Mathlib.Analysis.SpecialFunctions.Complex.Arg
import Mathlib.Analysis.SpecialFunctions.Trigonometric.Basic
import Mathlib.Tactic.Linarith
import SpatialGrammar.Geometry.Transform

namespace SpatialGrammar

/-- The reals with their operations; the angle of the origin is zero, and a quotient is zero if its
divisor is. -/
noncomputable instance : Scalar ℝ where
  decidableLE := inferInstance
  decidableLT := inferInstance
  abs x := |x|
  sqrt := Real.sqrt
  sin := Real.sin
  cos := Real.cos
  atan2 y x := Complex.arg ⟨x, y⟩
  remainder x y := x - y * if 0 ≤ x / y then (⌊x / y⌋ : ℝ) else (⌈x / y⌉ : ℝ)
  tau := 2 * Real.pi

namespace Scalar

@[simp] theorem abs_real (x : ℝ) : Scalar.abs x = |x| := rfl

@[simp] theorem sqrt_real (x : ℝ) : Scalar.sqrt x = Real.sqrt x := rfl

@[simp] theorem sin_real (x : ℝ) : Scalar.sin x = Real.sin x := rfl

@[simp] theorem cos_real (x : ℝ) : Scalar.cos x = Real.cos x := rfl

@[simp] theorem atan2_real (y x : ℝ) : Scalar.atan2 y x = Complex.arg ⟨x, y⟩ := rfl

@[simp] theorem tau_real : (Scalar.tau : ℝ) = 2 * Real.pi := rfl

@[simp] theorem ratio_real (num den : Nat) : (Scalar.ratio num den : ℝ) = num / den := rfl

theorem remainder_real (x y : ℝ) :
    Scalar.remainder x y = x - y * if 0 ≤ x / y then (⌊x / y⌋ : ℝ) else (⌈x / y⌉ : ℝ) :=
  rfl

end Scalar

/-! ### Angles -/

namespace Angle

theorem fullTurn_real : (fullTurn : ℝ) = 360 := by
  unfold fullTurn
  norm_num

theorem toDegrees_toRadians (d : ℝ) : toDegrees (toRadians d) = d := by
  have hpi := Real.pi_ne_zero
  unfold toDegrees toRadians
  rw [fullTurn_real, Scalar.tau_real]
  field_simp

/-- Angles below a full turn are kept. -/
theorem wrap_of_nonneg {d : ℝ} (hnonneg : 0 ≤ d) (hlt : d < 360) : wrap d = d := by
  have hfloor : ⌊d / 360⌋ = 0 := by
    rw [Int.floor_eq_zero_iff]
    constructor
    · positivity
    · rw [div_lt_one (by norm_num)]
      exact hlt
  have hquot : 0 ≤ d / 360 := by positivity
  unfold wrap
  rw [fullTurn_real, Scalar.remainder_real, if_pos hquot, hfloor]
  simp [not_lt.mpr hnonneg]

/-- Negative ones are one turn away. -/
theorem wrap_of_neg {d : ℝ} (hneg : d < 0) (hgt : -360 < d) : wrap d = d + 360 := by
  have hceil : ⌈d / 360⌉ = 0 := by
    rw [Int.ceil_eq_zero_iff]
    constructor
    · rw [lt_div_iff₀ (by norm_num)]
      linarith
    · linarith
  have hquot : ¬ 0 ≤ d / 360 := by
    rw [not_le]
    linarith
  unfold wrap
  rw [fullTurn_real, Scalar.remainder_real, if_neg hquot, hceil]
  simp [hneg]

end Angle

/-! ### Vectors -/

namespace Vec3

@[ext] theorem ext_real {a b : Vec3 ℝ} (hx : a.x = b.x) (hy : a.y = b.y) (hz : a.z = b.z) :
    a = b := by
  cases a
  cases b
  simp_all

variable (a b : Vec3 ℝ) (s : ℝ)

@[simp] theorem add_x : (a.add b).x = a.x + b.x := rfl

@[simp] theorem add_y : (a.add b).y = a.y + b.y := rfl

@[simp] theorem add_z : (a.add b).z = a.z + b.z := rfl

@[simp] theorem sub_x : (a.sub b).x = a.x - b.x := rfl

@[simp] theorem sub_y : (a.sub b).y = a.y - b.y := rfl

@[simp] theorem sub_z : (a.sub b).z = a.z - b.z := rfl

@[simp] theorem scale_x : (a.scale s).x = a.x * s := rfl

@[simp] theorem scale_y : (a.scale s).y = a.y * s := rfl

@[simp] theorem scale_z : (a.scale s).z = a.z * s := rfl

@[simp] theorem mul_one : a.mul .one = a := by
  ext <;> simp [mul, zipWith, one]

@[simp] theorem add_zero : a.add .zero = a := by
  ext <;> simp [zero]

@[simp] theorem zero_add : Vec3.zero.add a = a := by
  ext <;> simp [zero]

end Vec3

/-! ### Rotations -/

namespace Quat

/-- A quaternion turns sums part by part. -/
theorem rotate_add (q : Quat ℝ) (u v : Vec3 ℝ) :
    q.rotate (u.add v) = (q.rotate u).add (q.rotate v) := by
  ext <;> simp [rotate, Vec3.cross] <;> ring

theorem rotate_scale (q : Quat ℝ) (v : Vec3 ℝ) (s : ℝ) :
    q.rotate (v.scale s) = (q.rotate v).scale s := by
  ext <;> simp [rotate, Vec3.cross] <;> ring

theorem rotate_sub (q : Quat ℝ) (u v : Vec3 ℝ) :
    q.rotate (u.sub v) = (q.rotate u).sub (q.rotate v) := by
  ext <;> simp [rotate, Vec3.cross] <;> ring

theorem identity_multiply (q : Quat ℝ) : identity.multiply q = q := by
  cases q
  simp [multiply, identity]

@[simp] theorem identity_rotate (v : Vec3 ℝ) : identity.rotate v = v := by
  ext <;> simp [rotate, identity, Vec3.cross]

/-- A quaternion of length one is kept. -/
theorem normalize_of_unit {q : Quat ℝ} (h : q.x * q.x + q.y * q.y + q.z * q.z + q.w * q.w = 1) :
    q.normalize = q := by
  have hsum : Scalar.sum (q.toList.map fun c => c * c) = 1 := by
    simpa [Scalar.sum, toList] using h
  have hone : ¬ (1 : ℝ) ≤ Scalar.epsilon := by
    simp [Scalar.epsilon]
    norm_num
  unfold normalize
  simp only [hsum, Scalar.sqrt_real, Real.sqrt_one, if_neg hone]
  cases q
  simp

/-- A turn about the upward axis, written with half the angle. -/
theorem ofYaw_eq (degrees : ℝ) : (ofYaw degrees : Quat ℝ) =
    ⟨0, Real.sin (Angle.toRadians degrees / 2), 0, Real.cos (Angle.toRadians degrees / 2)⟩ := by
  have hlength : (Vec3.unitY : Vec3 ℝ).lengthSquared = 1 := by
    simp [Vec3.unitY, Vec3.lengthSquared]
  have hone : ¬ (1 : ℝ) ≤ Scalar.epsilon * Scalar.epsilon := by
    simp [Scalar.epsilon]
    norm_num
  have hhalf : Angle.toRadians degrees * Scalar.ratio 1 2 = Angle.toRadians degrees / 2 := by
    rw [Scalar.ratio_real]
    push_cast
    ring
  unfold ofYaw ofAxisAngle
  simp only [hlength, if_neg hone, hhalf]
  simp [Vec3.unitY, Vec3.scale, Vec3.map]

/-- What it does to a vector. -/
theorem rotate_ofYaw (degrees : ℝ) (v : Vec3 ℝ) : (ofYaw degrees).rotate v =
    ⟨Real.cos (Angle.toRadians degrees) * v.x + Real.sin (Angle.toRadians degrees) * v.z, v.y,
      Real.cos (Angle.toRadians degrees) * v.z - Real.sin (Angle.toRadians degrees) * v.x⟩ := by
  have hangle : Angle.toRadians degrees = 2 * (Angle.toRadians degrees / 2) := by ring
  have hunit := Real.sin_sq_add_cos_sq (Angle.toRadians degrees / 2)
  rw [ofYaw_eq]
  rw [hangle, Real.cos_two_mul, Real.sin_two_mul, ← hangle]
  ext
  · simp only [rotate, Vec3.cross, Vec3.add_x, Vec3.scale_x, Vec3.scale_z]
    push_cast
    linear_combination (-2 * v.x) * hunit
  · simp [rotate, Vec3.cross]
  · simp only [rotate, Vec3.cross, Vec3.add_z, Vec3.scale_x, Vec3.scale_z]
    push_cast
    linear_combination (-2 * v.z) * hunit

theorem toRadians_add (d e : ℝ) :
    Angle.toRadians (d + e) = Angle.toRadians d + Angle.toRadians e := by
  unfold Angle.toRadians
  ring

/-- Two turns about the upward axis are one. -/
theorem rotate_ofYaw_add (d e : ℝ) (v : Vec3 ℝ) :
    (ofYaw (d + e)).rotate v = (ofYaw d).rotate ((ofYaw e).rotate v) := by
  rw [rotate_ofYaw, rotate_ofYaw, rotate_ofYaw, toRadians_add, Real.cos_add, Real.sin_add]
  ext
  · ring
  · rfl
  · ring

theorem normalize_ofYaw (degrees : ℝ) : (ofYaw degrees).normalize = ofYaw degrees := by
  refine normalize_of_unit ?_
  rw [ofYaw_eq]
  have hunit := Real.sin_sq_add_cos_sq (Angle.toRadians degrees / 2)
  simp only []
  linear_combination hunit

theorem rotate_ofYaw_fullTurn (d : ℝ) (k : ℤ) (v : Vec3 ℝ) :
    (ofYaw (d + 360 * (k : ℝ))).rotate v = (ofYaw d).rotate v := by
  have hturns : Angle.toRadians (360 * (k : ℝ)) = (k : ℝ) * (2 * Real.pi) := by
    unfold Angle.toRadians
    rw [Angle.fullTurn_real, Scalar.tau_real]
    ring
  rw [rotate_ofYaw, rotate_ofYaw, toRadians_add, hturns, Real.cos_add_int_mul_two_pi,
    Real.sin_add_int_mul_two_pi]

/-- The angle is told from where the first axis is brought, up to half a turn either way. -/
theorem yaw_ofYaw_wrap {d : ℝ} (hgt : -180 < d) (hle : d ≤ 180) :
    (ofYaw d).yaw = Angle.wrap d := by
  have hpi := Real.pi_pos
  have hradians : Angle.toRadians d ∈ Set.Ioc (-Real.pi) Real.pi := by
    unfold Angle.toRadians
    rw [Angle.fullTurn_real, Scalar.tau_real]
    constructor <;> nlinarith
  have harg : Complex.arg ⟨Real.cos (Angle.toRadians d), Real.sin (Angle.toRadians d)⟩ =
      Angle.toRadians d := by
    refine Eq.trans (congrArg Complex.arg ?_) (Complex.arg_cos_add_sin_mul_I hradians)
    apply Complex.ext <;> simp [Complex.cos_ofReal_re, Complex.sin_ofReal_re]
  unfold yaw
  rw [rotate_ofYaw]
  simp only [Vec3.unitX, Scalar.atan2_real]
  norm_num
  rw [harg, Angle.toDegrees_toRadians]

/-- A turn is told from what it does, up to a full turn. -/
theorem yaw_ofYaw {d : ℝ} (hnonneg : 0 ≤ d) (hlt : d < 360) : (ofYaw d).yaw = d := by
  rcases le_or_gt d 180 with hle | hgt
  · rw [yaw_ofYaw_wrap (by linarith) hle, Angle.wrap_of_nonneg hnonneg hlt]
  · have hback : (ofYaw d).yaw = (ofYaw (d - 360)).yaw := by
      have hrotate := rotate_ofYaw_fullTurn (d - 360) 1 .unitX
      have hsum : d - 360 + 360 * ((1 : ℤ) : ℝ) = d := by
        push_cast
        ring
      rw [hsum] at hrotate
      unfold yaw
      rw [hrotate]
    rw [hback, yaw_ofYaw_wrap (by linarith) (by linarith),
      Angle.wrap_of_neg (by linarith) (by linarith)]
    ring

end Quat

end SpatialGrammar
