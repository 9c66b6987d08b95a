/-
SpatialGrammar/Decimal/Layout.lean

How a number is written once its digits are chosen.

A `Layout` is a record of the decisions that tell one written form from another:
where positional notation ends, what marks a whole number, which way a tie between
two shortest decimals goes.
-/
import SpatialGrammar.Decimal.Integer
import SpatialGrammar.Decimal.Shortest

namespace SpatialGrammar.Decimal

/-- The decisions of a written form of numbers. -/
structure Layout where
  /-- Whether a number of this decimal order is written without an exponent. -/
  positional : Int → Bool
  /-- What follows the digits of a whole number. -/
  wholeMark : String
  /-- Whether a tie between two shortest decimals goes to the even digit, else upward. -/
  evenTies : Bool

namespace Layout

/-- The digits with a point at the place that the power of ten asks for. -/
def positionalText (l : Layout) (digits : List Char) (k : Int) : List Char :=
  if 0 ≤ k then digits ++ List.replicate k.toNat '0' ++ l.wholeMark.toList
  else
    let places := (-k).toNat
    if places < digits.length then
      digits.take (digits.length - places) ++ '.' :: digits.drop (digits.length - places)
    else '0' :: '.' :: List.replicate (places - digits.length) '0' ++ digits

/-- One digit, the others after a point, and the decimal order with its sign. -/
def scientificText (digits : List Char) (order : Int) : List Char :=
  let mantissa := match digits with
    | d :: e :: ds => d :: '.' :: e :: ds
    | _ => digits
  mantissa ++ 'e' :: (if order < 0 then '-' else '+') :: Nat.toDigits 10 order.natAbs

/-- The text of a positive number given as digits and a power of ten. -/
def decimalText (l : Layout) (d : Nat) (k : Int) : List Char :=
  let digits := Nat.toDigits 10 d
  let order := k + (digits.length : Int) - 1
  if l.positional order then l.positionalText digits k else scientificText digits order

/-- The text of a number. -/
def text (l : Layout) (x : Float32) : List Char :=
  match Binary32.parts x with
  | .nan => "NaN".toList
  | .infinite negative => (if negative then ['-'] else []) ++ "inf".toList
  | .finite negative m e =>
    (if negative then ['-'] else []) ++
      if m = 0 then '0' :: l.wholeMark.toList
      else
        let (d, k) := shortest l.evenTies m e
        l.decimalText d k

/-- The form of a number inside a symbol's arguments: positional whatever its order, a whole
number bare, a tie upward. -/
def plain : Layout := ⟨fun _ => true, "", false⟩

/-- The form of a number in a document: positional from a millionth to below ten trillion, a whole
number with a zero after the point, a tie to the even digit. -/
def document : Layout := ⟨fun order => -6 ≤ order && order ≤ 12, ".0", true⟩

end Layout

instance : Numeral Float32 := ⟨Binary32.read?, Layout.plain.text⟩

end SpatialGrammar.Decimal
