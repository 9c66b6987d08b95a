/-
SpatialGrammar/Symbol/Arguments.lean

Reading the arguments of a symbol.

Arguments are parts between commas.  A reader answers nothing where the text does
not have the form it wants.
-/
import SpatialGrammar.Decimal.Integer
import SpatialGrammar.Geometry.Vec3
import SpatialGrammar.Text.Blank

namespace SpatialGrammar.Arguments

/-- The parts between the commas; an empty text has none. -/
def split (args : List Char) : List (List Char) :=
  if args = [] then [] else Text.commaParts args

/-- The vector spelled by the first three parts; further ones are passed over. -/
def vec3? {α : Type} [Numeral α] (args : List Char) : Option (Vec3 α) :=
  match split args with
  | x :: y :: z :: _ => do
    let x ← Numeral.read? x
    let y ← Numeral.read? y
    let z ← Numeral.read? z
    return ⟨x, y, z⟩
  | _ => none

/-- A signed whole number of 64 bits, with blanks allowed around it. -/
def int? (arg : List Char) : Option Int := Decimal.signedOfWidth? 64 (Text.trim arg)

/-- Whether a part says yes: `t`, `T` or `1`, with blanks allowed around it. -/
def flag (arg : List Char) : Bool :=
  let word := Text.trim arg
  word = ['t'] || word = ['T'] || word = ['1']

/-- How far up its producers a symbol looks for a parent. -/
inductive Depth where
  /-- So many producers up. -/
  | levels (n : Nat)
  /-- Up to the last one. -/
  | root
  deriving DecidableEq, Repr

/-- A depth: `root` or `r` in any case, or a count of 64 bits, with blanks allowed around it. -/
def depth? (arg : List Char) : Option Depth :=
  let word := Text.trim arg
  if Text.lower word = "root".toList ∨ Text.lower word = ['r'] then some .root
  else (Decimal.unsignedOfWidth? 64 word).map .levels

end SpatialGrammar.Arguments
