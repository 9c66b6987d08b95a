/-
SpatialGrammar/Text/Blank.lean

Blank characters, and texts without them.

A character is blank when it has the Unicode property `White_Space`, which is more
than core's `Char.isWhitespace` knows.
-/

namespace SpatialGrammar.Text

/-- The characters with the Unicode property `White_Space`. -/
def isBlank (c : Char) : Bool :=
  let n := c.toNat
  (0x9 ≤ n && n ≤ 0xd) || n == 0x20 || n == 0x85 || n == 0xa0 || n == 0x1680 ||
    (0x2000 ≤ n && n ≤ 0x200a) || n == 0x2028 || n == 0x2029 || n == 0x202f || n == 0x205f ||
    n == 0x3000

/-- The characters of a text that are not blank. -/
def withoutBlanks (cs : List Char) : List Char := cs.filter (!isBlank ·)

/-- A text without the blanks at its two ends. -/
def trim (cs : List Char) : List Char :=
  ((cs.dropWhile isBlank).reverse.dropWhile isBlank).reverse

/-- Whether a text has no character that is not blank. -/
def isAllBlank (cs : List Char) : Bool := cs.all isBlank

/-- The parts of a text between its commas; there is always one more than commas. -/
def commaParts : List Char → List (List Char)
  | [] => [[]]
  | c :: cs =>
    match commaParts cs with
    | [] => [[c]]
    | part :: parts => if c = ',' then [] :: part :: parts else (c :: part) :: parts

/-- A text with its ASCII capitals made small. -/
def lower (cs : List Char) : List Char := cs.map Char.toLower

theorem commaParts_ne_nil (cs : List Char) : commaParts cs ≠ [] := by
  cases cs with
  | nil => simp [commaParts]
  | cons c cs =>
    unfold commaParts
    split
    · simp
    · split <;> simp

end SpatialGrammar.Text
