/-
SpatialGrammar/Scene/Link.lean

Links from the names of objects to the prefabs that they may be made from.

The arguments of an object may choose one of its variants by number.  Without a
number, with minus one, and with one that does not choose a variant, it is drawn.
-/
import SpatialGrammar.Names.Index
import SpatialGrammar.Random.Source
import SpatialGrammar.Symbol.Arguments

namespace SpatialGrammar

/-- The variants of the objects of one name. -/
structure Link where
  symbol : String
  /-- The names of the prefabs, in the order of their numbers. -/
  prefabs : List String
  deriving DecidableEq, Repr

/-- Links by the names of objects. -/
structure LinkTable where
  byName : Index (List String)
  deriving DecidableEq, Repr

namespace LinkTable

/-- The table of a list of links. -/
def ofList (links : List Link) : LinkTable :=
  ⟨.ofList (links.map fun l => (l.symbol, l.prefabs))⟩

/-- The variants of the objects of a name. -/
def variants? (t : LinkTable) (symbol : String) : Option (List String) := t.byName.get? symbol

/-- The variant that arguments choose, of the given number of variants. -/
def chosen? (args : List Char) (count : Nat) : Option Nat :=
  if Text.isAllBlank args then none
  else
    match Arguments.int? args with
    | none => none
    | some i => if 0 ≤ i ∧ i.toNat < count then some i.toNat else none

/-- The name of the prefab for an object; none where no variant is linked. -/
def resolve {α ρ : Type} [RandomSource ρ α] (t : LinkTable) (symbol args : String) (s : ρ) :
    Option String × ρ :=
  match t.variants? symbol with
  | none => (none, s)
  | some variants =>
    if variants = [] then (none, s)
    else
      let (i, s) := match chosen? args.toList variants.length with
        | some i => (i, s)
        | none => RandomSource.nextIndex variants.length s
      (variants[i]?, s)

end LinkTable

end SpatialGrammar
