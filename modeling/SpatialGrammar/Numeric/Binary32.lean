/-
SpatialGrammar/Numeric/Binary32.lean

Single-precision numbers as a `Scalar`.

Core supplies the four operations, the order and the square root.  Here is what
it lacks: the parts of a number (`Binary32.Parts`), the number nearest to given
parts, minimum and maximum that pass over an operand that is not a number, the
truncated remainder, and the functions of angles, which are computed in double
precision and rounded once.
-/
import SpatialGrammar.Numeric.Rounding
import SpatialGrammar.Numeric.Scalar

namespace SpatialGrammar.Binary32

/-- What a single-precision number is: `significand * 2 ^ exponent` with a sign. -/
inductive Parts where
  | nan
  | infinite (negative : Bool)
  | finite (negative : Bool) (significand : Nat) (exponent : Int)
  deriving DecidableEq, Repr

/-- The parts of a number, read from its bits. -/
def parts (x : Float32) : Parts :=
  let bits := x.toBits.toNat
  let negative := 0x80000000 ≤ bits
  let biased : Nat := bits / 0x800000 % 0x100
  let fraction : Nat := bits % 0x800000
  if biased = 255 then
    if fraction = 0 then .infinite negative else .nan
  else if biased = 0 then .finite negative fraction (-149)
  else .finite negative (0x800000 + fraction) ((biased : Int) - 150)

private def signBit (negative : Bool) : Nat := if negative then 0x80000000 else 0

/-- The infinity of the given sign. -/
def infinity (negative : Bool) : Float32 :=
  Float32.ofBits (UInt32.ofNat (signBit negative + 0x7f800000))

/-- The number with the given sign that is nearest to `num / den`. -/
def nearest (negative : Bool) (num den : Nat) : Float32 :=
  match BinaryFormat.single.round num den with
  | none => infinity negative
  | some (m, e) =>
    let magnitude := if m < 0x800000 then m else (e + 150).toNat * 0x800000 + (m - 0x800000)
    Float32.ofBits (UInt32.ofNat (signBit negative + magnitude))

/-- The number with the given sign that is nearest to `m * 2 ^ e`. -/
def nearestScaled (negative : Bool) (m : Nat) (e : Int) : Float32 :=
  if 0 ≤ e then nearest negative (m * Nat.pow 2 e.toNat) 1
  else nearest negative m (Nat.pow 2 (-e).toNat)

/-- The number that is no number. -/
def nan : Float32 := Float32.ofBits 0x7fc00000

/-- The smaller operand; one that is not a number is passed over. -/
def least (a b : Float32) : Float32 :=
  if a.isNaN then b else if b.isNaN then a else if a ≤ b then a else b

/-- The larger operand; one that is not a number is passed over. -/
def greatest (a b : Float32) : Float32 :=
  if a.isNaN then b else if b.isNaN then a else if a ≤ b then b else a

/-- The remainder of the division whose quotient is rounded toward zero; it has the sign of
the dividend. -/
def remainder (a b : Float32) : Float32 :=
  match parts a, parts b with
  | .finite _ _ _, .infinite _ => a
  | .finite negative m e, .finite _ n f =>
    if n = 0 then nan
    else
      let shift := min e f
      let rest := (m * Nat.pow 2 (e - shift).toNat) % (n * Nat.pow 2 (f - shift).toNat)
      nearestScaled negative rest shift
  | _, _ => nan

/-- A function of double-precision numbers, rounded once to single precision. -/
def viaDouble (f : Float → Float) (x : Float32) : Float32 := (f x.toFloat).toFloat32

/-- The whole part of `x * n`, no less than zero and below `n` where `n` is positive. -/
def scaledIndex (x : Float32) (n : Nat) : Nat :=
  match parts x with
  | .nan => 0
  | .infinite negative => if negative then 0 else n - 1
  | .finite negative m e =>
    if negative then 0
    else min (if 0 ≤ e then m * n * Nat.pow 2 e.toNat else m * n / Nat.pow 2 (-e).toNat) (n - 1)

instance : Scalar Float32 where
  natCast := Float32.ofNat
  zero := 0
  one := 1
  min := least
  max := greatest
  decidableLE := inferInstance
  decidableLT := inferInstance
  abs := Float32.abs
  sqrt := Float32.sqrt
  sin := viaDouble Float.sin
  cos := viaDouble Float.cos
  atan2 y x := (Float.atan2 y.toFloat x.toFloat).toFloat32
  remainder := remainder
  tau := Float32.ofBits 0x40c90fdb

end SpatialGrammar.Binary32
