/-
SpatialGrammar/Document/Validity.lean

Whether the parts of a document fit together.

`Document.check` looks at the repetitions, the links, the prefabs, the space and the
scatter area in this order, and each list from the beginning; it reports the first
fault.  `Document.read` reads a text and checks what it has read.
-/
import SpatialGrammar.Document.Reading
import SpatialGrammar.Json.Reading
import SpatialGrammar.Text.Quoted

namespace SpatialGrammar

/-- Why a text is not a valid document. -/
inductive DocumentError where
  /-- It is not JSON, or its data have the wrong types. -/
  | malformed
  /-- A link names a prefab that does not exist. -/
  | unknownPrefab (symbol missing : String)
  /-- A link names no prefab. -/
  | emptyLink (symbol : String)
  /-- A generator lists something that is no tile. -/
  | notATile (generator listed : String)
  /-- A size is negative along an axis. -/
  | negativeSize (what : String)
  /-- The grammar is to be run no times. -/
  | zeroRepeat
  deriving DecidableEq, Repr

/-- The wording of a fault. -/
def DocumentError.message : DocumentError → String
  | malformed => "not a grammar document"
  | unknownPrefab symbol missing =>
    "link " ++ Text.quoted symbol ++ " references unknown prefab " ++ Text.quoted missing
  | emptyLink symbol => "link " ++ Text.quoted symbol ++ " has no prefabs"
  | notATile generator listed =>
    "generator " ++ Text.quoted generator ++ " lists " ++ Text.quoted listed ++
      ", which is not a tile prefab"
  | negativeSize what => what ++ " has a negative size"
  | zeroRepeat => "repeat must be at least 1"

/-- Whether a coordinate is negative. -/
def Vec3.hasNegative {α : Type} [Scalar α] (v : Vec3 α) : Bool := v.toList.any fun c => c < 0

/-- Whether a prefab is a tile. -/
def Prefab.isTile {α : Type} (p : Prefab α) : Bool :=
  match p.kind with
  | .tile _ => true
  | .marker | .generator _ => false

namespace Document

variable {α : Type}

/-- The first prefab with the given name. -/
def prefab? (d : Document α) (name : String) : Option (Prefab α) :=
  d.prefabs.find? fun p => p.name = name

/-- Checks that a link names prefabs and that they exist. -/
def checkLink (d : Document α) (l : Link) : Except DocumentError Unit :=
  if l.prefabs = [] then .error (.emptyLink l.symbol)
  else
    match l.prefabs.find? fun name => (d.prefab? name).isNone with
    | some missing => .error (.unknownPrefab l.symbol missing)
    | none => .ok ()

/-- Checks that a generator lists nothing but tiles. -/
def checkGenerator (d : Document α) (name : String) (g : GeneratorPrefab) :
    Except DocumentError Unit :=
  match g.tiles.find? fun tile => !((d.prefab? tile).map Prefab.isTile).getD false with
  | some listed => .error (.notATile name listed)
  | none => .ok ()

variable [Scalar α]

/-- Checks that a size is not negative. -/
def checkSize (what : String) (size : Vec3 α) : Except DocumentError Unit :=
  if size.hasNegative then .error (.negativeSize what) else .ok ()

/-- Checks a prefab. -/
def checkPrefab (d : Document α) (p : Prefab α) : Except DocumentError Unit :=
  match p.kind with
  | .marker => .ok ()
  | .tile shape => checkSize p.name shape.size
  | .generator g => d.checkGenerator p.name g

/-- Checks that the parts of a document fit together. -/
def check (d : Document α) : Except DocumentError Unit := do
  if d.repetitions = 0 then throw .zeroRepeat
  d.links.forM d.checkLink
  d.prefabs.forM d.checkPrefab
  (d.space.toList.forM fun s => checkSize "space" s.size)
  (d.scatter.toList.forM fun s => checkSize "scatter area" s.size)

/-- The valid document that a text spells. -/
def read (text : String) : Except DocumentError (Document Float32) :=
  match (Json.read? text).bind ofJson? with
  | none => .error .malformed
  | some d =>
    match d.check with
    | .ok () => .ok d
    | .error e => .error e

end Document

end SpatialGrammar
