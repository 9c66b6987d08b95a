/-
SpatialGrammar/Derivation/Rehearsal.lean

A world without space, for trying a grammar out.

It gives entities out by number or from a list, knows the methods of a list, and says
of the entities of chosen objects that they violate the space.
-/
import SpatialGrammar.Random.Source
import SpatialGrammar.Derivation.World

namespace SpatialGrammar

/-- An entity that a rehearsal has made. -/
structure Rehearsal.Entry where
  entity : EntityId
  request : SpawnRequest
  /-- The index that was drawn when it was made. -/
  drawn : Option Nat
  deriving DecidableEq, Repr

/-- The state of a rehearsal. -/
structure Rehearsal where
  /-- The handles to give out, round and round; if there are none, entities are numbered. -/
  handles : Array EntityId
  /-- Whether making an entity draws an index below ten. -/
  draws : Bool
  /-- The methods that every entity has. -/
  methods : List String
  /-- The entities to object to, by the order in which they were made, from zero. -/
  rejectedPlaces : List Nat
  /-- The entities to object to by name, with or without the arguments in parentheses. -/
  rejectedNames : List String
  /-- The entities made so far. -/
  made : Array Rehearsal.Entry

namespace Rehearsal

/-- The handle of the next entity. -/
def nextHandle (w : Rehearsal) : EntityId :=
  if w.handles.isEmpty then w.made.size else w.handles.getD (w.made.size % w.handles.size) 0

/-- The place of the last entity made with the given handle. -/
def placeOf? (w : Rehearsal) (e : EntityId) : Option Nat :=
  (w.made.toList.zipIdx.reverse.find? fun m => m.1.entity = e).map Prod.snd

/-- Whether the rehearsal objects to an entity. -/
def violates (w : Rehearsal) (e : EntityId) : Bool :=
  match w.placeOf? e with
  | none => false
  | some place =>
    w.rejectedPlaces.contains place ||
      match w.made[place]? with
      | none => false
      | some m =>
        w.rejectedNames.contains m.request.name ||
          w.rejectedNames.contains (m.request.name ++ "(" ++ m.request.args ++ ")")

variable {α ρ : Type}

instance [RandomSource ρ α] : World Rehearsal ρ where
  spawn request w s :=
    let entity := w.nextHandle
    let (drawn, s) :=
      if w.draws then
        let (i, s) := RandomSource.nextIndex 10 s
        (some i, s)
      else (none, s)
    (entity, { w with made := w.made.push ⟨entity, request, drawn⟩ }, s)
  perform _ call w := (w.methods.contains call.name, w)
  discard _ w := w
  settle _ w := w

end Rehearsal

end SpatialGrammar
