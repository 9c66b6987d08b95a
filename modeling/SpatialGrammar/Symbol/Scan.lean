/-
SpatialGrammar/Symbol/Scan.lean

Cutting a text into symbols.

Symbols stand between angle brackets, with nothing but blanks between them; a slash
ends the text wherever it stands.  `scan` gives the text inside the brackets of each
symbol, in order, and the structural fault at which it stopped, if there is one.
-/
import SpatialGrammar.Symbol.ParseError
import SpatialGrammar.Text.Blank

namespace SpatialGrammar

/-- The bodies of the symbols of a text and the fault that ended the reading. -/
structure Scan where
  bodies : List (List Char)
  fault : Option ParseError
  deriving DecidableEq, Repr

namespace Scan

/-- A symbol that is open: the offset of its bracket and its characters so far, last first. -/
structure Open where
  offset : Nat
  reversed : List Char

/-- A further symbol in front of those scanned. -/
def cons (body : List Char) (s : Scan) : Scan := { s with bodies := body :: s.bodies }

/-- The scan of a text that starts at byte `offset`, inside the symbol `current` if there is one. -/
def ofChars (offset : Nat) (current : Option Open) : List Char → Scan
  | [] => ⟨[], current.map fun o => .unclosed o.offset⟩
  | c :: cs =>
    let next := offset + c.utf8Size
    if c = '/' then ⟨[], none⟩
    else
      match current with
      | none =>
        if c = '<' then ofChars next (some ⟨offset, []⟩) cs
        else if Text.isBlank c then ofChars next none cs
        else ⟨[], some (.missingOpen offset c)⟩
      | some o =>
        if c = '<' then ⟨[], some (.unexpectedOpen offset)⟩
        else if c = '>' then (ofChars next none cs).cons o.reversed.reverse
        else ofChars next (some { o with reversed := c :: o.reversed }) cs

end Scan

/-- The symbols of a text. -/
def scan (text : List Char) : Scan := Scan.ofChars 0 none text

end SpatialGrammar
