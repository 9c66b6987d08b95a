/-
SpatialGrammar/Symbol/Token.lean

Symbols as they are read from a text, and texts as they are made of symbols.

Inside the brackets the first word tells the kind.  The rest is taken without its
blanks: what stands between the first opening and the last closing parenthesis is
the arguments, with their placeholders replaced, and what is left is the name.
`parse` reads every symbol of a text in order and `render` writes symbols down.
-/
import SpatialGrammar.Symbol.Kind
import SpatialGrammar.Symbol.Placeholder
import SpatialGrammar.Symbol.Scan

namespace SpatialGrammar

/-- A symbol as read. -/
structure Token where
  /-- The text of the symbol with its brackets. -/
  raw : String
  kind : SymbolKind
  /-- The name, without blanks. -/
  name : String
  /-- The arguments, with placeholders replaced. -/
  args : String
  deriving DecidableEq, Repr

/-- The symbols of a text and what was wrong with it, both in order. -/
structure Parse where
  tokens : List Token
  errors : List ParseError
  deriving DecidableEq, Repr

namespace Token

/-- The text of a symbol with its brackets. -/
def rawOfBody (body : List Char) : String := String.ofList ('<' :: body ++ ['>'])

/-- A text cut at its first opening and its last closing parenthesis: what stands before, between
and after them, provided they stand in this order. -/
def splitArguments? (cs : List Char) : Option (List Char × List Char × List Char) :=
  let before := cs.takeWhile (· ≠ '(')
  let reversed := (cs.dropWhile (· ≠ '(')).drop 1 |>.reverse
  match reversed.dropWhile (· ≠ ')') with
  | [] => none
  | _ :: inside => some (before, inside.reverse, (reversed.takeWhile (· ≠ ')')).reverse)

variable {α ρ : Type} [Scalar α] [Numeral α] [RandomSource ρ α]

/-- The symbol with the given text inside its brackets. -/
def ofBody (body : List Char) (s : ρ) : (Token × List ParseError) × ρ :=
  let raw := rawOfBody body
  let word := body.takeWhile (!Text.isBlank ·)
  let compact := Text.withoutBlanks (body.dropWhile (!Text.isBlank ·))
  let kind := SymbolKind.ofWord word
  let kindErrors := if kind = .invalid then [.unknownKind (String.ofList word) raw] else []
  match splitArguments? compact with
  | none => ((⟨raw, kind, String.ofList compact, ""⟩, kindErrors), s)
  | some (before, inside, after) =>
    let (args, s) := Placeholder.resolve inside s
    ((⟨raw, kind, String.ofList (before ++ after), String.ofList args.text⟩,
      kindErrors ++ args.errors), s)

/-- The symbols with the given texts inside their brackets. -/
def ofBodies : List (List Char) → ρ → Parse × ρ
  | [], s => (⟨[], []⟩, s)
  | body :: bodies, s =>
    let ((token, errors), s) := ofBody body s
    let (rest, s) := ofBodies bodies s
    (⟨token :: rest.tokens, errors ++ rest.errors⟩, s)

end Token

variable {α ρ : Type} [Scalar α] [Numeral α] [RandomSource ρ α]

/-- Reads a text; a structural fault is the last one reported. -/
def parse (text : String) (s : ρ) : Parse × ρ :=
  let found := scan text.toList
  let (p, s) := Token.ofBodies found.bodies s
  ({ p with errors := p.errors ++ found.fault.toList }, s)

/-- The texts of symbols one after another. -/
def render (tokens : List Token) : String := String.join (tokens.map Token.raw)

end SpatialGrammar
