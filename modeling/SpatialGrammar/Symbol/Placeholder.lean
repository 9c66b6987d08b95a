/-
SpatialGrammar/Symbol/Placeholder.lean

Placeholders for random numbers inside arguments.

A placeholder is `R[`, two numbers with a comma between them, and `]`.  Placeholders
are replaced from left to right by the text of a number drawn between the two; what
has been put in is not read again.  A placeholder that holds anything else stays as
it is, and so does the text from an `R[` that is never closed.
-/
import SpatialGrammar.Random.Source
import SpatialGrammar.Symbol.ParseError
import SpatialGrammar.Text.Blank

namespace SpatialGrammar.Placeholder

/-- A text with its placeholders replaced, and the faults found on the way. -/
structure Resolved where
  text : List Char
  errors : List ParseError
  deriving DecidableEq, Repr

/-- The text that opens a placeholder, followed by what stands inside. -/
def opened (inside : List Char) : List Char := 'R' :: '[' :: inside

variable {α ρ : Type} [Scalar α] [Numeral α] [RandomSource ρ α]

/-- The two numbers between the brackets of a placeholder. -/
def bounds? (inside : List Char) : Option (α × α) :=
  match (Text.commaParts inside).map (Numeral.read? (α := α)) with
  | [some low, some high] => some (low, high)
  | _ => none

/-- What a closed placeholder is replaced by. -/
def replace (inside : List Char) (s : ρ) : Resolved × ρ :=
  match bounds? (α := α) inside with
  | some (low, high) =>
    let (x, s) := RandomSource.nextBetween low high s
    (⟨Numeral.text x, []⟩, s)
  | none =>
    let fragment := opened inside ++ [']']
    (⟨fragment, [.malformedRandom (String.ofList fragment)]⟩, s)

/-- The resolved rest of a text, from inside the placeholder whose characters so far, last first,
are given, or from outside every placeholder. -/
def resolveFrom : Option (List Char) → List Char → ρ → Resolved × ρ
  | none, [], s => (⟨[], []⟩, s)
  | some reversed, [], s =>
    let fragment := opened reversed.reverse
    (⟨fragment, [.malformedRandom (String.ofList fragment)]⟩, s)
  | none, 'R' :: '[' :: cs, s => resolveFrom (some []) cs s
  | none, c :: cs, s =>
    let (rest, s) := resolveFrom none cs s
    (⟨c :: rest.text, rest.errors⟩, s)
  | some reversed, c :: cs, s =>
    if c = ']' then
      let (first, s) := replace reversed.reverse s
      let (rest, s) := resolveFrom none cs s
      (⟨first.text ++ rest.text, first.errors ++ rest.errors⟩, s)
    else resolveFrom (some (c :: reversed)) cs s
termination_by structural _ cs => cs

/-- A text with its placeholders replaced. -/
def resolve (text : List Char) (s : ρ) : Resolved × ρ := resolveFrom none text s

end SpatialGrammar.Placeholder
