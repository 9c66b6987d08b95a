/-
SpatialGrammar/Text/Quoted.lean

Texts and characters in quotes, as they appear inside messages.

Tab, line feed, carriage return, NUL, the backslash and the surrounding quote have
short escapes; a hidden character is written as its code point in braces; every
other character stands for itself.
-/
import SpatialGrammar.Text.Visible

namespace SpatialGrammar.Text

/-- The written form of one character between two copies of `mark`. -/
def escape (mark : Char) (c : Char) : List Char :=
  if c = '\t' then ['\\', 't']
  else if c = '\n' then ['\\', 'n']
  else if c = '\r' then ['\\', 'r']
  else if c = Char.ofNat 0 then ['\\', '0']
  else if c = '\\' ∨ c = mark then ['\\', c]
  else if isVisible c then [c]
  else ['\\', 'u', '\x7b'] ++ Nat.toDigits 16 c.toNat ++ ['\x7d']

/-- A text between double quotes. -/
def quoted (s : String) : String :=
  String.ofList ('"' :: s.toList.flatMap (escape '"') ++ ['"'])

/-- A character between single quotes. -/
def quotedChar (c : Char) : String :=
  String.ofList ('\'' :: escape '\'' c ++ ['\''])

end SpatialGrammar.Text
