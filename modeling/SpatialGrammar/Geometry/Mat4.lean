/-
SpatialGrammar/Geometry/Mat4.lean

Affine maps of space as four-by-four matrices, held column by column.
-/
import SpatialGrammar.Geometry.Vec3

namespace SpatialGrammar

/-- A column of a matrix. -/
structure Vec4 (α : Type) where
  x : α
  y : α
  z : α
  w : α
  deriving BEq, DecidableEq, Repr

/-- A four-by-four matrix. -/
structure Mat4 (α : Type) where
  c0 : Vec4 α
  c1 : Vec4 α
  c2 : Vec4 α
  c3 : Vec4 α
  deriving BEq, DecidableEq, Repr

/-- The entries from top to bottom. -/
def Vec4.toList {α : Type} (v : Vec4 α) : List α := [v.x, v.y, v.z, v.w]

namespace Mat4

variable {α : Type}

/-- The entries column by column. -/
def toList (m : Mat4 α) : List α :=
  m.c0.toList ++ m.c1.toList ++ m.c2.toList ++ m.c3.toList

variable [Scalar α]

/-- The map that moves every point by `t`. -/
def shift (t : Vec3 α) : Mat4 α :=
  ⟨⟨1, 0, 0, 0⟩, ⟨0, 1, 0, 0⟩, ⟨0, 0, 1, 0⟩, ⟨t.x, t.y, t.z, 1⟩⟩

/-- The map that stretches each axis by the matching coordinate of `s`. -/
def scaling (s : Vec3 α) : Mat4 α :=
  ⟨⟨s.x, 0, 0, 0⟩, ⟨0, s.y, 0, 0⟩, ⟨0, 0, s.z, 0⟩, ⟨0, 0, 0, 1⟩⟩

/-- The map that moves nothing. -/
def identity : Mat4 α := ⟨⟨1, 0, 0, 0⟩, ⟨0, 1, 0, 0⟩, ⟨0, 0, 1, 0⟩, ⟨0, 0, 0, 1⟩⟩

/-- The image of a column; each entry is summed from zero, first column first. -/
def apply (m : Mat4 α) (v : Vec4 α) : Vec4 α :=
  ⟨0 + m.c0.x * v.x + m.c1.x * v.y + m.c2.x * v.z + m.c3.x * v.w,
   0 + m.c0.y * v.x + m.c1.y * v.y + m.c2.y * v.z + m.c3.y * v.w,
   0 + m.c0.z * v.x + m.c1.z * v.y + m.c2.z * v.z + m.c3.z * v.w,
   0 + m.c0.w * v.x + m.c1.w * v.y + m.c2.w * v.z + m.c3.w * v.w⟩

/-- The map that applies `n` first and `m` second. -/
def multiply (m n : Mat4 α) : Mat4 α :=
  ⟨m.apply n.c0, m.apply n.c1, m.apply n.c2, m.apply n.c3⟩

/-- The image of a direction, which a shift of space leaves alone. -/
def transformDirection (m : Mat4 α) (v : Vec3 α) : Vec3 α :=
  ⟨m.c0.x * v.x + m.c1.x * v.y + m.c2.x * v.z,
   m.c0.y * v.x + m.c1.y * v.y + m.c2.y * v.z,
   m.c0.z * v.x + m.c1.z * v.y + m.c2.z * v.z⟩

/-- The image of a point. -/
def transformPoint (m : Mat4 α) (v : Vec3 α) : Vec3 α :=
  (m.transformDirection v).add ⟨m.c3.x, m.c3.y, m.c3.z⟩

end Mat4

end SpatialGrammar
