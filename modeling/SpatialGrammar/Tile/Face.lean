/-
SpatialGrammar/Tile/Face.lean

The six faces of a tile, the axes along which tiles are joined, and turning one face
toward another.

The four upright faces are numbered around the upward axis, so that a quarter turn
moves each to the place of the one before it.
-/
import SpatialGrammar.Numeric.Scalar
import SpatialGrammar.Text.Blank
import SpatialGrammar.Text.Quoted

namespace SpatialGrammar

/-- A face of a tile. -/
inductive Face where
  | xPos | zNeg | xNeg | zPos | yPos | yNeg
  deriving DecidableEq, Repr

namespace Face

/-- All faces, in the order of their numbers. -/
def all : List Face := [xPos, zNeg, xNeg, zPos, yPos, yNeg]

/-- The number of a face. -/
def index : Face → Nat
  | xPos => 0 | zNeg => 1 | xNeg => 2 | zPos => 3 | yPos => 4 | yNeg => 5

/-- The face on the other side. -/
def opposite : Face → Face
  | xPos => xNeg | zNeg => zPos | xNeg => xPos | zPos => zNeg | yPos => yNeg | yNeg => yPos

/-- Whether the face is the top or the bottom. -/
def isVertical : Face → Bool
  | yPos | yNeg => true
  | xPos | zNeg | xNeg | zPos => false

/-- The written name of a face. -/
def label : Face → String
  | xPos => "x+" | zNeg => "z-" | xNeg => "x-" | zPos => "z+" | yPos => "y+" | yNeg => "y-"

/-- The face with the given name. -/
def ofLabel? (name : String) : Option Face := all.find? fun f => f.label = name

/-- A text that should name a face and does not. -/
structure ReadError where
  text : String
  deriving DecidableEq, Repr

/-- The wording of a reading that failed. -/
def ReadError.message (e : ReadError) : String :=
  "invalid surface direction " ++ Text.quoted e.text

/-- Reads the name of a face, in any case and with blanks allowed around it. -/
def read (text : List Char) : Except ReadError Face :=
  match ofLabel? (String.ofList (Text.lower (Text.trim text))) with
  | some f => .ok f
  | none => .error ⟨String.ofList text⟩

end Face

/-- The axes along which tiles are joined. -/
inductive AxisMode where
  | xz | x | z | y
  deriving DecidableEq, Repr

namespace AxisMode

/-- All modes. -/
def all : List AxisMode := [xz, x, z, y]

/-- The written name of a mode. -/
def label : AxisMode → String
  | xz => "xz" | x => "x" | z => "z" | y => "y"

/-- The mode with the given name. -/
def ofLabel? (name : String) : Option AxisMode := all.find? fun m => m.label = name

/-- The faces at which a tile may be continued. -/
def anchorFaces : AxisMode → List Face
  | xz => [.xPos, .zNeg, .xNeg, .zPos]
  | x => [.xPos, .xNeg]
  | z => [.zPos, .zNeg]
  | y => [.yPos, .yNeg]

/-- The faces by which a tile may be put on: the top and the bottom in stacks, any upright face
elsewhere. -/
def movingFaces : AxisMode → List Face
  | y => anchorFaces y
  | xz | x | z => anchorFaces xz

/-- The quarter turns that bring `source` to the place of `target`.  In stacks a face is either
there already or half a turn away; a horizontal turn brings no upright face to the top. -/
def quarterTurns (mode : AxisMode) (source target : Face) : Nat :=
  if mode = y then if source = target then 0 else 2
  else
    let distance : Int := (source.index : Int) - (target.index : Int)
    if distance = 1 ∨ distance = -3 then 3
    else if distance = 2 ∨ distance = -2 then 2
    else if distance = 3 ∨ distance = -1 then 1
    else 0

/-- The turn, in degrees, that brings `source` to the place of `target`. -/
def turn {α : Type} [Scalar α] (mode : AxisMode) (source target : Face) : α :=
  ((90 * mode.quarterTurns source target : Nat) : α)

end AxisMode

end SpatialGrammar
