/-
SpatialGrammar/Decimal/Integer.lean

Whole numbers of fixed width written in decimal.

A signed reader takes a plus or a minus sign, an unsigned one a plus sign only;
both want at least one digit and refuse a value that does not fit the width.
-/
import SpatialGrammar.Decimal.Literal

namespace SpatialGrammar.Decimal

/-- A whole number below `2 ^ bits`, with an optional plus sign. -/
def unsignedOfWidth? (bits : Nat) (cs : List Char) : Option Nat :=
  let body := match cs with
    | '+' :: rest => rest
    | _ => cs
  (natural? body).filter (· < Nat.pow 2 bits)

/-- A whole number from `-2 ^ (bits - 1)` to below `2 ^ (bits - 1)`, with an optional sign. -/
def signedOfWidth? (bits : Nat) (cs : List Char) : Option Int :=
  let (negative, body) := splitSign cs
  (natural? body).bind fun n =>
    if negative then
      if n ≤ Nat.pow 2 (bits - 1) then some (-(n : Int)) else none
    else if n < Nat.pow 2 (bits - 1) then some (n : Int) else none

/-- The decimal digits of a whole number. -/
def natText (n : Nat) : String := String.ofList (Nat.toDigits 10 n)

/-- The decimal digits of an integer, with a minus sign where it is negative. -/
def intText (n : Int) : String :=
  if n < 0 then "-" ++ natText n.natAbs else natText n.natAbs

end SpatialGrammar.Decimal
