/-
SpatialGrammar/Json/Reading.lean

Reading JSON texts.

The readers below take a list of characters and give a value and the characters after
it, or nothing where the text does not follow the grammar.  The fuel of the mutually
recursive ones only has to exceed twice the length of the text.
-/
import SpatialGrammar.Json.Value

namespace SpatialGrammar.Json

/-- The blanks of JSON. -/
def isBlank (c : Char) : Bool := c = ' ' || c = '\n' || c = '\t' || c = '\r'

/-- The text after its leading blanks. -/
def skip (cs : List Char) : List Char := cs.dropWhile isBlank

/-! ### Numerals -/

/-- Whether a text is empty or an exponent mark with digits, possibly signed. -/
def isExponent : List Char → Bool
  | [] => true
  | c :: cs =>
    let digits := match cs with
      | '+' :: ds => ds
      | '-' :: ds => ds
      | _ => cs
    (c = 'e' || c = 'E') && digits ≠ [] && digits.all Char.isDigit

/-- Whether a text is a fraction and an exponent, each of which may be missing. -/
def isFraction : List Char → Bool
  | '.' :: cs => cs.takeWhile Char.isDigit ≠ [] && isExponent (cs.dropWhile Char.isDigit)
  | cs => isExponent cs

/-- Whether a text is a number in JSON: no superfluous zero in front, and digits on both sides of a
point. -/
def isNumeral (cs : List Char) : Bool :=
  let body := match cs with
    | '-' :: rest => rest
    | _ => cs
  let whole := body.takeWhile Char.isDigit
  whole ≠ [] && (whole = ['0'] || whole.head? ≠ some '0') &&
    isFraction (body.dropWhile Char.isDigit)

/-- Whether a character may be part of a numeral. -/
def isNumeralChar (c : Char) : Bool :=
  c.isDigit || c = '-' || c = '+' || c = '.' || c = 'e' || c = 'E'

/-! ### Strings -/

/-- A character of a string, or the 16-bit unit that an escape gives by number. -/
inductive Piece where
  | char (c : Char)
  | unit (n : Nat)
  deriving DecidableEq, Repr

/-- The value of a hexadecimal digit. -/
def hexDigit? (c : Char) : Option Nat :=
  let n := c.toNat
  if '0'.toNat ≤ n ∧ n ≤ '9'.toNat then some (n - '0'.toNat)
  else if 'a'.toNat ≤ n ∧ n ≤ 'f'.toNat then some (n - 'a'.toNat + 10)
  else if 'A'.toNat ≤ n ∧ n ≤ 'F'.toNat then some (n - 'A'.toNat + 10)
  else none

/-- The number that four hexadecimal digits spell. -/
def hexUnit? (a b c d : Char) : Option Nat := do
  let a ← hexDigit? a
  let b ← hexDigit? b
  let c ← hexDigit? c
  let d ← hexDigit? d
  return ((a * 16 + b) * 16 + c) * 16 + d

/-- The character that a one-letter escape stands for. -/
def shortEscape? (c : Char) : Option Char :=
  if c = '"' ∨ c = '\\' ∨ c = '/' then some c
  else if c = 'b' then some '\x08'
  else if c = 'f' then some '\x0c'
  else if c = 'n' then some '\n'
  else if c = 'r' then some '\r'
  else if c = 't' then some '\t'
  else none

/-- The pieces of a string up to its closing quote, and the text after that. -/
def pieces? : List Char → Option (List Piece × List Char)
  | [] => none
  | '"' :: cs => some ([], cs)
  | '\\' :: 'u' :: a :: b :: c :: d :: cs =>
    match hexUnit? a b c d with
    | none => none
    | some n => (pieces? cs).map fun (ps, rest) => (.unit n :: ps, rest)
  | '\\' :: e :: cs =>
    match shortEscape? e with
    | none => none
    | some c => (pieces? cs).map fun (ps, rest) => (.char c :: ps, rest)
  | c :: cs =>
    if c.toNat < 0x20 ∨ c = '\\' then none
    else (pieces? cs).map fun (ps, rest) => (.char c :: ps, rest)

/-- The text of pieces; a high surrogate wants a low one after it. -/
def textOfPieces : List Piece → Option (List Char)
  | [] => some []
  | .char c :: ps => (textOfPieces ps).map (c :: ·)
  | .unit n :: ps =>
    if n < 0xd800 ∨ 0xdfff < n then (textOfPieces ps).map (Char.ofNat n :: ·)
    else
      match ps with
      | .unit m :: ps =>
        if n < 0xdc00 ∧ 0xdc00 ≤ m ∧ m ≤ 0xdfff then
          (textOfPieces ps).map (Char.ofNat (0x10000 + (n - 0xd800) * 0x400 + (m - 0xdc00)) :: ·)
        else none
      | _ => none

/-- A string after its opening quote. -/
def string? (cs : List Char) : Option (Option String × List Char) :=
  (pieces? cs).map fun (ps, rest) => ((textOfPieces ps).map String.ofList, rest)

/-! ### Values -/

/-- The text after a given beginning. -/
def after? : List Char → List Char → Option (List Char)
  | [], cs => some cs
  | _ :: _, [] => none
  | p :: ps, c :: cs => if p = c then after? ps cs else none

/-- A value that is a word or a number. -/
def atom? (cs : List Char) : Option (Json × List Char) :=
  match after? "null".toList cs, after? "true".toList cs, after? "false".toList cs with
  | some rest, _, _ => some (.null, rest)
  | _, some rest, _ => some (.bool true, rest)
  | _, _, some rest => some (.bool false, rest)
  | none, none, none =>
    let numeral := cs.takeWhile isNumeralChar
    if isNumeral numeral then
      some (.number (String.ofList numeral), cs.dropWhile isNumeralChar)
    else none

mutual

/-- A value. -/
def value? : Nat → List Char → Option (Json × List Char)
  | 0, _ => none
  | fuel + 1, cs =>
    match skip cs with
    | '"' :: cs => (string? cs).map fun (s, rest) => (.string s, rest)
    | '[' :: cs =>
      match skip cs with
      | ']' :: rest => some (.array [], rest)
      | cs => (items? fuel cs).map fun (vs, rest) => (.array vs, rest)
    | '{' :: cs =>
      match skip cs with
      | '}' :: rest => some (.object [], rest)
      | cs => (members? fuel cs).map fun (ms, rest) => (.object ms, rest)
    | cs => atom? cs

/-- The items of an array that is not empty, up to its closing bracket. -/
def items? : Nat → List Char → Option (List Json × List Char)
  | 0, _ => none
  | fuel + 1, cs => do
    let (v, cs) ← value? fuel cs
    match skip cs with
    | ',' :: cs => (items? fuel cs).map fun (vs, rest) => (v :: vs, rest)
    | ']' :: rest => some ([v], rest)
    | _ => none

/-- The members of an object that is not empty, up to its closing brace. -/
def members? : Nat → List Char → Option (List (Option String × Json) × List Char)
  | 0, _ => none
  | fuel + 1, cs =>
    match skip cs with
    | '"' :: cs => do
      let (name, cs) ← string? cs
      match skip cs with
      | ':' :: cs => do
        let (v, cs) ← value? fuel cs
        match skip cs with
        | ',' :: cs => (members? fuel cs).map fun (ms, rest) => ((name, v) :: ms, rest)
        | '}' :: rest => some ([(name, v)], rest)
        | _ => none
      | _ => none
    | _ => none

end

/-- The value that a text spells, with blanks allowed around it. -/
def read? (text : String) : Option Json :=
  let cs := text.toList
  match value? (2 * cs.length + 2) cs with
  | some (v, rest) => if skip rest = [] then some v else none
  | none => none

end SpatialGrammar.Json
