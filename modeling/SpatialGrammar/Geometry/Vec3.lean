/-
SpatialGrammar/Geometry/Vec3.lean

Points and directions of space.
-/
import SpatialGrammar.Numeric.Scalar

namespace SpatialGrammar

/-- A point or a direction. -/
structure Vec3 (α : Type) where
  x : α
  y : α
  z : α
  deriving BEq, DecidableEq, Repr

namespace Vec3

variable {α : Type}

/-- The coordinates in order. -/
def toList (v : Vec3 α) : List α := [v.x, v.y, v.z]

/-- The same function of each coordinate. -/
def map (f : α → α) (v : Vec3 α) : Vec3 α := ⟨f v.x, f v.y, f v.z⟩

/-- A function of the coordinates of two vectors, axis by axis. -/
def zipWith (f : α → α → α) (a b : Vec3 α) : Vec3 α := ⟨f a.x b.x, f a.y b.y, f a.z b.z⟩

variable [Scalar α]

/-- The origin. -/
def zero : Vec3 α := ⟨0, 0, 0⟩

/-- The vector whose coordinates are all one. -/
def one : Vec3 α := ⟨1, 1, 1⟩

/-- The direction of the first axis. -/
def unitX : Vec3 α := ⟨1, 0, 0⟩

/-- The upward direction. -/
def unitY : Vec3 α := ⟨0, 1, 0⟩

/-- The direction of the third axis. -/
def unitZ : Vec3 α := ⟨0, 0, 1⟩

/-- The sum, axis by axis. -/
def add (a b : Vec3 α) : Vec3 α := zipWith (· + ·) a b

/-- The difference, axis by axis. -/
def sub (a b : Vec3 α) : Vec3 α := zipWith (· - ·) a b

/-- The product, axis by axis. -/
def mul (a b : Vec3 α) : Vec3 α := zipWith (· * ·) a b

/-- A multiple of a vector. -/
def scale (a : Vec3 α) (s : α) : Vec3 α := a.map (· * s)

/-- The vector product. -/
def cross (a b : Vec3 α) : Vec3 α :=
  ⟨a.y * b.z - a.z * b.y, a.z * b.x - a.x * b.z, a.x * b.y - a.y * b.x⟩

/-- The square of the length. -/
def lengthSquared (a : Vec3 α) : α := a.x * a.x + a.y * a.y + a.z * a.z

/-- The length. -/
def length (a : Vec3 α) : α := Scalar.sqrt a.lengthSquared

/-- The vector of length one in the same direction; a vector too short to have a direction gives
the origin. -/
def normalize (a : Vec3 α) : Vec3 α :=
  if a.length ≤ Scalar.epsilon then zero else a.scale (1 / a.length)

/-- Whether two vectors differ by no more than `tolerance` on each axis. -/
def near (a b : Vec3 α) (tolerance : α) : Bool :=
  (a.sub b).toList.all fun d => Scalar.abs d ≤ tolerance

/-- The coordinates in parentheses. -/
def text [Numeral α] (a : Vec3 α) : String :=
  "(" ++ ", ".intercalate (a.toList.map (String.ofList ∘ Numeral.text)) ++ ")"

end Vec3

end SpatialGrammar
