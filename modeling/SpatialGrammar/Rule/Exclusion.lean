/-
SpatialGrammar/Rule/Exclusion.lean

The alternatives that a symbol has tried in vain.

Only one symbol at a time is remembered; recording a failure of another one starts
over.
-/
import SpatialGrammar.Names.Handle

namespace SpatialGrammar

/-- The symbol whose alternatives failed and the positions of those alternatives. -/
structure ExclusionSet where
  parent : Option SymbolId
  /-- Without repetition, in the order in which they failed. -/
  indices : List Nat
  deriving DecidableEq, Repr

namespace ExclusionSet

/-- Nothing has failed. -/
def empty : ExclusionSet := ⟨none, []⟩

/-- The set for failures of `parent`: the present one, or an empty one if it is for another
symbol. -/
def about (e : ExclusionSet) (parent : SymbolId) : ExclusionSet :=
  if e.parent = some parent then e else ⟨some parent, []⟩

/-- Remembers that the alternative of `parent` at `index` failed; without an index only the symbol
is remembered. -/
def record (e : ExclusionSet) (parent : SymbolId) (index : Option Nat) : ExclusionSet :=
  let e := e.about parent
  match index with
  | none => e
  | some i => if i ∈ e.indices then e else { e with indices := e.indices ++ [i] }

/-- Forgets what failed and of whom. -/
def clear (_ : ExclusionSet) : ExclusionSet := empty

end ExclusionSet

end SpatialGrammar
