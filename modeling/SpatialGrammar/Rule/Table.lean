/-
SpatialGrammar/Rule/Table.lean

Rules, and finding the rule of a symbol.

A rule is meant for the symbols whose name is the rule's input without blanks.  Looking
a name up draws one of the rule's alternatives; an alternative with nothing but blanks
gives no output, and neither does a name without a rule.
-/
import SpatialGrammar.Names.Index
import SpatialGrammar.Rule.Selection
import SpatialGrammar.Text.Blank

namespace SpatialGrammar

/-- The ways to expand the symbols of one name. -/
structure Rule (α : Type) where
  input : String
  outputs : List (Alternative α)
  deriving BEq, DecidableEq, Repr

/-- The name of the symbols that a rule is meant for. -/
def Rule.name {α : Type} (r : Rule α) : String :=
  String.ofList (Text.withoutBlanks r.input.toList)

/-- Rules in the order in which they were written, with look-up by name. -/
structure RuleTable (α : Type) where
  rules : List (Rule α)
  byName : Index (Rule α)

/-- The alternative that was drawn for a symbol. -/
structure Drawn where
  /-- Its position in the rule. -/
  index : Nat
  template : String
  deriving DecidableEq, Repr

namespace RuleTable

variable {α ρ : Type}

/-- The table of a list of rules. -/
def ofList (rules : List (Rule α)) : RuleTable α :=
  ⟨rules, .ofList (rules.map fun r => (r.name, r))⟩

/-- The rule for symbols of the given name. -/
def rule? (t : RuleTable α) (name : String) : Option (Rule α) := t.byName.get? name

variable [Scalar α] [RandomSource ρ α]

/-- Draws an alternative for a name among those that are not excluded. -/
def lookup (t : RuleTable α) (name : String) (excluded : List Nat) (s : ρ) : Option Drawn × ρ :=
  match t.rule? name with
  | none => (none, s)
  | some rule =>
    let (index, s) := Alternative.select rule.outputs excluded s
    let drawn := do
      let index ← index
      let alternative ← rule.outputs[index]?
      if Text.isAllBlank alternative.template.toList then none
      else some ⟨index, alternative.template⟩
    (drawn, s)

end RuleTable

end SpatialGrammar
