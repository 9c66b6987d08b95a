/-
SpatialGrammar/Scene/Hierarchy.lean

The entities of a scene and the tree that they form.

An entity's handle is its place in the order of making, and a place is never used
again.  Each entity stands in the frame of its parent.  A walk up the tree meets no
entity twice, so as many steps as there are places are enough for it, and likewise for
a walk down.
-/
import SpatialGrammar.Scene.Entity
import SpatialGrammar.Scene.Link
import SpatialGrammar.Scene.Prefab

namespace SpatialGrammar

/-- A scene. -/
structure Scene (α : Type) where
  catalog : PrefabCatalog α
  links : LinkTable
  /-- Where a new holder stands. -/
  spawnOrigin : Vec3 α
  /-- The places of all entities ever made; one that has been removed leaves its place empty. -/
  entities : Array (Option (Entity α))
  /-- The holder of the present run. -/
  holder : Option EntityId

namespace Scene

variable {α : Type}

/-- A scene without entities. -/
def empty (catalog : PrefabCatalog α) (links : LinkTable) (spawnOrigin : Vec3 α) : Scene α :=
  ⟨catalog, links, spawnOrigin, #[], none⟩

/-- The entity with the given handle, if it is live. -/
def get? (s : Scene α) (id : EntityId) : Option (Entity α) := s.entities.getD id none

/-- Whether an entity is live. -/
def contains (s : Scene α) (id : EntityId) : Bool := (s.get? id).isSome

/-- The live entities with their handles, in the order in which they were made. -/
def live (s : Scene α) : List (EntityId × Entity α) :=
  s.entities.toList.zipIdx.filterMap fun (e, id) => e.map fun e => (id, e)

/-- Changes a live entity. -/
def modify (s : Scene α) (id : EntityId) (f : Entity α → Entity α) : Scene α :=
  { s with entities := s.entities.modify id (Option.map f) }

/-- Empties the place of an entity. -/
def erase (s : Scene α) (id : EntityId) : Scene α :=
  { s with entities := s.entities.modify id fun _ => none }

/-- A change to an entity leaves every other place alone. -/
theorem get?_modify (s : Scene α) (id : EntityId) (f : Entity α → Entity α) (other : EntityId) :
    (s.modify id f).get? other = if other = id then (s.get? other).map f else s.get? other := by
  simp only [modify, get?, Array.getD_eq_getD_getElem?, Array.getElem?_modify, eq_comm (a := other)]
  split <;> cases s.entities[other]? <;> rfl

/-- Erasing empties one place and leaves every other alone. -/
theorem get?_erase (s : Scene α) (id other : EntityId) :
    (s.erase id).get? other = if other = id then none else s.get? other := by
  simp only [erase, get?, Array.getD_eq_getD_getElem?, Array.getElem?_modify, eq_comm (a := other)]
  split <;> cases s.entities[other]? <;> rfl

/-! ### Relations -/

/-- Makes one entity a child of another; it comes after the other children. -/
def attach (s : Scene α) (child parent : EntityId) : Scene α :=
  (s.modify parent fun p => { p with children := p.children ++ [child] }).modify child fun c =>
    { c with parent := some parent }

/-- Takes an entity away from its parent. -/
def detach (s : Scene α) (child : EntityId) : Scene α :=
  match (s.get? child).bind Entity.parent with
  | none => s
  | some parent =>
    (s.modify child fun c => { c with parent := none }).modify parent fun p =>
      { p with children := p.children.filter (· ≠ child) }

/-- Enters an entity in the next place, without a parent. -/
def insert (s : Scene α) (e : Entity α) : EntityId × Scene α :=
  (s.entities.size, { s with entities := s.entities.push (some e) })

/-- An entity that has been entered is found in its place, and every other place is as before. -/
theorem get?_insert (s : Scene α) (e : Entity α) (id : EntityId) :
    (s.insert e).2.get? id = if id = s.entities.size then some e else s.get? id := by
  simp only [insert, get?, Array.getD_eq_getD_getElem?, Array.getElem?_push]
  split <;> rfl

/-- Enters an entity in the next place, as a child of `parent`. -/
def insertUnder (s : Scene α) (e : Entity α) (parent : EntityId) : EntityId × Scene α :=
  let (id, s) := s.insert e
  (id, s.attach id parent)

/-- Whether `ancestor` is met within `fuel` steps on the way up from an entity, itself included. -/
def meetsWithin (s : Scene α) (ancestor : EntityId) : Nat → EntityId → Bool
  | 0, _ => false
  | fuel + 1, id =>
    id = ancestor ||
      match (s.get? id).bind Entity.parent with
      | none => false
      | some parent => meetsWithin s ancestor fuel parent

/-- Whether `ancestor` is the entity itself or above it. -/
def isAncestor (s : Scene α) (ancestor id : EntityId) : Bool :=
  s.meetsWithin ancestor (s.entities.size + 1) id

/-- Removes an entity and what hangs below it, down to the given depth. -/
def clear : Nat → EntityId → Scene α → Scene α
  | 0, _, s => s
  | depth + 1, id, s =>
    match s.get? id with
    | none => s
    | some e => e.children.foldl (fun s child => clear depth child s) (s.erase id)

/-- Removes an entity and everything below it. -/
def remove (s : Scene α) (id : EntityId) : Scene α := clear s.entities.size id (s.detach id)

/-! ### Poses -/

variable [Scalar α]

/-- Where an entity stands in the world, following its parents for at most `fuel` steps. -/
def worldWithin (s : Scene α) : Nat → EntityId → Option (Transform α)
  | 0, _ => none
  | fuel + 1, id =>
    match s.get? id with
    | none => none
    | some e =>
      match e.parent with
      | none => some e.pose
      | some parent => some (((worldWithin s fuel parent).getD .identity).compose e.pose)

/-- Where an entity stands in the world. -/
def world? (s : Scene α) (id : EntityId) : Option (Transform α) :=
  s.worldWithin s.entities.size id

/-- The frame that an entity stands in. -/
def frame (s : Scene α) (id : EntityId) : Transform α :=
  (((s.get? id).bind Entity.parent).bind s.world?).getD .identity

/-- Moves an entity within its frame. -/
def setPose (s : Scene α) (id : EntityId) (pose : Transform α) : Scene α :=
  s.modify id fun e => { e with pose }

/-- Moves an entity to where it shall stand in the world. -/
def setWorld (s : Scene α) (id : EntityId) (world : Transform α) : Scene α :=
  s.setPose id ((s.frame id).inverse.compose world)

/-- Gives an entity another parent, and tells whether it was done: it is not where one of them does
not exist or where the parent is the entity itself or below it.  The entity stays where it stands in
the world if `keepWorld` says so, and else where it stands in its frame. -/
def setParent (s : Scene α) (child parent : EntityId) (keepWorld : Bool) : Bool × Scene α :=
  if !s.contains child || !s.contains parent || s.isAncestor child parent then (false, s)
  else
    let world := (s.world? child).getD .identity
    let s := (s.detach child).attach child parent
    (true, if keepWorld then s.setWorld child world else s)

end Scene

end SpatialGrammar
