/-
SpatialGrammar/Decimal/Stepwise.lean

Decimal numerals in double precision, rounded at every step.

The digits of a numeral are gathered in a word of 64 bits, and those that do not fit
are dropped; the word is rounded to double precision and then multiplied or divided
by a power of ten that is itself rounded.  Where the word has at most 53 bits and the
power is at most `10 ^ 22`, both are exact and the outcome is the nearest number;
elsewhere it may lie beside it.
-/
import SpatialGrammar.Decimal.Literal

namespace SpatialGrammar.Decimal

/-! ### Digits in a word -/

/-- Appends digits to a word as long as it has room, and gives the word and the digits left. -/
def gather : Nat → List Char → Nat × List Char
  | n, [] => (n, [])
  | n, c :: cs =>
    if appendDigit n c < UInt64.size then gather (appendDigit n c) cs else (n, c :: cs)

/-- The decimal whose digits are those that a word has room for.  Where a digit before the point
found no room, smaller ones after it still may. -/
def Parts.gathered (p : Parts) : Decimal :=
  let (word, dropped) := gather 0 p.whole
  let (word, unread) := gather word p.fraction
  ⟨false, word,
    p.exponent + (dropped.length : Int) - ((p.fraction.length - unread.length : Nat) : Int)⟩

/-- The decimal of a numeral as far as a word has room for its digits. -/
def gathered? (cs : List Char) : Option Decimal :=
  let (negative, body) := splitSign cs
  (parts? body).map fun p => { p.gathered with negative }

/-! ### Scaling -/

/-- The greatest power of ten in reach of double precision. -/
def greatestPower : Nat := 308

/-- The double-precision number nearest to a power of ten that is in reach. -/
def powerOfTen (k : Nat) : Nat × Int :=
  (BinaryFormat.double.round (Nat.pow 10 k) 1).getD (0, 0)

/-- A double-precision number times a power of ten, or nothing where that is too large.  A quotient
by a power out of reach is taken in more than one step. -/
def scale (a : Nat × Int) (k : Int) : Option (Nat × Int) :=
  if a.1 = 0 then some a
  else if 0 ≤ k then
    if (greatestPower : Int) < k then none else BinaryFormat.double.multiply a (powerOfTen k.toNat)
  else if -(greatestPower : Int) ≤ k then BinaryFormat.double.divide a (powerOfTen (-k).toNat)
  else
    match BinaryFormat.double.divide a (powerOfTen greatestPower) with
    | none => none
    | some b => scale b (k + greatestPower)
termination_by k.natAbs
decreasing_by simp only [greatestPower] at *; omega

/-- The double-precision number that a decimal comes to, its sign left out. -/
def toDouble? (d : Decimal) : Option (Nat × Int) :=
  (BinaryFormat.double.round d.digits 1).bind fun a => scale a d.exponent

/-- The single-precision number nearest to the double-precision number that a decimal comes to. -/
def toSingleStepwise? (d : Decimal) : Option Float32 :=
  d.toDouble?.map fun (m, e) => Binary32.nearestScaled d.negative m e

end SpatialGrammar.Decimal
