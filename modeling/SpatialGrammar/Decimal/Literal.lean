/-
SpatialGrammar/Decimal/Literal.lean

Decimal numerals: their grammar and the numbers nearest to them.

A `Decimal` is a sign, a natural number of digits and a power of ten, so that no
digit is lost between the text and the rounding, and `Decimal.toSingle` rounds once.
-/
import SpatialGrammar.Numeric.Binary32

namespace SpatialGrammar

/-- The number `± digits * 10 ^ exponent`. -/
structure Decimal where
  /-- Whether a minus sign stands in front. -/
  negative : Bool
  /-- The digits read as one whole number. -/
  digits : Nat
  /-- The power of ten that scales them. -/
  exponent : Int
  deriving DecidableEq, Repr

namespace Decimal

/-- The whole number whose digits are those of `n` and one more. -/
def appendDigit (n : Nat) (c : Char) : Nat := 10 * n + (c.toNat - '0'.toNat)

/-- The whole number that a list of decimal digits spells. -/
def natOfDigits (cs : List Char) : Nat := cs.foldl appendDigit 0

/-- The whole number that a non-empty text of decimal digits spells. -/
def natural? (cs : List Char) : Option Nat :=
  if cs ≠ [] ∧ cs.all Char.isDigit then some (natOfDigits cs) else none

/-- A leading sign and what follows it. -/
def splitSign : List Char → Bool × List Char
  | '+' :: cs => (false, cs)
  | '-' :: cs => (true, cs)
  | cs => (false, cs)

/-- The exponent mark and its signed digits, or nothing at all. -/
def exponent? : List Char → Option Int
  | [] => some 0
  | c :: cs =>
    if c = 'e' ∨ c = 'E' then
      let (negative, digits) := splitSign cs
      (natural? digits).map fun n => if negative then -(n : Int) else (n : Int)
    else none

/-- A numeral without a sign, taken apart. -/
structure Parts where
  /-- The digits before the point. -/
  whole : List Char
  /-- The digits after the point. -/
  fraction : List Char
  /-- The exponent; zero where none is written. -/
  exponent : Int
  deriving DecidableEq, Repr

/-- The parts of a numeral: digits with at most one point and at least one digit, then an optional
exponent. -/
def parts? (cs : List Char) : Option Parts :=
  let whole := cs.takeWhile Char.isDigit
  let rest := cs.dropWhile Char.isDigit
  let (fraction, rest) :=
    match rest with
    | '.' :: cs => (cs.takeWhile Char.isDigit, cs.dropWhile Char.isDigit)
    | _ => ([], rest)
  if whole = [] ∧ fraction = [] then none
  else (exponent? rest).map fun e => ⟨whole, fraction, e⟩

/-- The decimal that a numeral without a sign spells. -/
def unsigned? (cs : List Char) : Option Decimal :=
  (parts? cs).map fun p =>
    ⟨false, natOfDigits (p.whole ++ p.fraction), p.exponent - (p.fraction.length : Int)⟩

/-- An unsigned numeral with an optional sign in front. -/
def ofText? (cs : List Char) : Option Decimal :=
  let (negative, body) := splitSign cs
  (unsigned? body).map fun d => { d with negative }

/-- The significand and exponent nearest to a decimal, its sign left out.  A value beyond every
format is decided by its order of magnitude alone. -/
def round (f : BinaryFormat) (d : Decimal) : Option (Nat × Int) :=
  let order := d.exponent + ((Nat.toDigits 10 d.digits).length : Int)
  if d.digits = 0 ∨ order < -400 then some (0, f.least)
  else if 400 < order then none
  else if 0 ≤ d.exponent then f.round (d.digits * Nat.pow 10 d.exponent.toNat) 1
  else f.round d.digits (Nat.pow 10 (-d.exponent).toNat)

/-- The single-precision number nearest to a decimal; an infinity where none is near. -/
def toSingle (d : Decimal) : Float32 :=
  match d.round .single with
  | none => Binary32.infinity d.negative
  | some (m, e) => Binary32.nearestScaled d.negative m e

end Decimal

/-- The number spelled by a numeral, by `inf` or `infinity`, or by `nan`; the words in any case
and all with an optional sign. -/
def Binary32.read? (cs : List Char) : Option Float32 :=
  let (negative, body) := Decimal.splitSign cs
  let word := body.map Char.toLower
  if word = "inf".toList ∨ word = "infinity".toList then some (infinity negative)
  else if word = "nan".toList then some nan
  else (Decimal.unsigned? body).map fun d => { d with negative }.toSingle

end SpatialGrammar
