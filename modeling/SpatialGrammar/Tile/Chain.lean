/-
SpatialGrammar/Tile/Chain.lean

Growing chains of tiles.

A chain starts with one tile and is continued at its last one, the tail.  `candidates`
lists every way to do so; first one of the anchor faces that occur in the list is drawn
and then one of the candidates at that face, so that a face with many candidates is no
likelier than one with few.  A chain ends early when nothing fits its tail.

One prefab may be reserved for the last place of the chain, and a prefab may be used
only once unless repetition is allowed.
-/
import SpatialGrammar.Geometry.Box
import SpatialGrammar.Random.Source
import SpatialGrammar.Tile.Placement

namespace SpatialGrammar

/-- How a chain is grown.  Prefabs are meant by their places in the list. -/
structure ChainParams where
  /-- How many tiles are wanted. -/
  count : Nat
  axisMode : AxisMode
  /-- The prefab of the first tile; otherwise it is drawn. -/
  first : Option Nat
  /-- The prefab that is kept for the last of the wanted tiles. -/
  last : Option Nat
  /-- Whether a prefab may be used more than once. -/
  allowRepeats : Bool
  /-- Whether the first tile is turned by a drawn number of quarter turns. -/
  randomStartRotation : Bool
  deriving DecidableEq, Repr

/-- No tiles, joined along the ground where there are some, without repetition. -/
def ChainParams.default : ChainParams := ⟨0, .xz, none, none, false, true⟩

/-- A way to continue a chain. -/
structure Candidate where
  prefab : Nat
  anchorFace : Face
  movingFace : Face
  deriving DecidableEq, Repr

/-- A tile of a chain. -/
structure ChainTile (α : Type) where
  prefab : Nat
  pose : Transform α
  /-- The faces at which it is joined to other tiles of the chain. -/
  used : List Face
  /-- The faces at which it was put on: that of the tile before it, and its own. -/
  joint : Option (Face × Face)
  deriving BEq, DecidableEq, Repr

/-- A chain that has been grown. -/
structure Chain (α : Type) where
  tiles : List (ChainTile α)
  /-- The height of the structure. -/
  height : α
  deriving BEq, DecidableEq, Repr

/-- Why no chain can be grown. -/
inductive ChainError where
  /-- There is no prefab to choose from. -/
  | noPrefabs
  /-- The prefab named for a part of the chain does not exist. -/
  | indexOutOfRange (role : String) (index count : Nat)
  deriving DecidableEq, Repr

/-- The wording of a failure to grow a chain. -/
def ChainError.message : ChainError → String
  | noPrefabs => "generator has no tile prefabs"
  | indexOutOfRange role index count =>
    role ++ " prefab index " ++ Decimal.natText index ++ " out of range for " ++
      Decimal.natText count ++ " prefabs"

namespace Candidate

variable {α : Type}

/-- Whether the parameters permit a prefab in a place of the chain, given the prefabs that were
used before. -/
def permitted (params : ChainParams) (usedPrefabs : List Nat) (finalSlot : Bool) (prefab : Nat) :
    Bool :=
  (params.allowRepeats || !usedPrefabs.contains prefab) &&
    match params.last with
    | none => true
    | some last => finalSlot == decide (prefab = last)

/-- Every way to continue a chain at its tail: by anchor face in the order of the mode, then by
prefab, then by moving face in the order of the mode. -/
def collect (prefabs : Array (TileShape α)) (tailPrefab : Nat) (tailUsed : List Face)
    (params : ChainParams) (usedPrefabs : List Nat) (finalSlot : Bool) : List Candidate :=
  match prefabs[tailPrefab]? with
  | none => []
  | some tail =>
    let anchorFaces := params.axisMode.anchorFaces.filter fun f =>
      !tailUsed.contains f && tail.faces.get f ≠ 0
    let allowed := prefabs.toList.zipIdx.filter fun p =>
      permitted params usedPrefabs finalSlot p.2
    anchorFaces.flatMap fun anchorFace =>
      allowed.flatMap fun (shape, prefab) =>
        (params.axisMode.movingFaces.filter fun movingFace =>
          tail.faces.compatible anchorFace shape.faces movingFace).map fun movingFace =>
            ⟨prefab, anchorFace, movingFace⟩

/-- The anchor faces that occur in a list, in the order of their numbers. -/
def anchorFaces (candidates : List Candidate) : List Face :=
  Face.all.filter fun f => candidates.any fun c => c.anchorFace = f

/-- The candidates at an anchor face, in order. -/
def atFace (candidates : List Candidate) (face : Face) : List Candidate :=
  candidates.filter fun c => c.anchorFace = face

/-- Draws an anchor face and then a candidate at that face. -/
def pick {ρ : Type} [RandomSource ρ α] (candidates : List Candidate) (s : ρ) :
    Option Candidate × ρ :=
  let faces := anchorFaces candidates
  if faces = [] then (none, s)
  else
    let (i, s) := RandomSource.nextIndex faces.length s
    match faces[i]? with
    | none => (none, s)
    | some face =>
      let there := atFace candidates face
      let (j, s) := RandomSource.nextIndex there.length s
      (there[j]?, s)

end Candidate

namespace Chain

variable {α ρ : Type} [Scalar α] [RandomSource ρ α]

/-- A chain that is being grown: its tail, and the tiles before it, last first. -/
structure Growing (α : Type) where
  tail : ChainTile α
  before : List (ChainTile α)
  usedPrefabs : List Nat

/-- The tiles in order. -/
def Growing.tiles (g : Growing α) : List (ChainTile α) := (g.tail :: g.before).reverse

/-- The prefabs that may not be used after the tail. -/
def Growing.exhausted (params : ChainParams) (g : Growing α) : List Nat :=
  if params.allowRepeats then g.usedPrefabs else g.tail.prefab :: g.usedPrefabs

/-- The chain with a candidate put on, if the prefabs exist and the faces can be joined. -/
def Growing.put? (prefabs : Array (TileShape α)) (params : ChainParams) (g : Growing α)
    (c : Candidate) : Option (Growing α) := do
  let anchor ← prefabs[g.tail.prefab]?
  let moving ← prefabs[c.prefab]?
  let pose ← (StandingTile.place ⟨anchor, g.tail.pose⟩ c.anchorFace ⟨moving, .identity⟩
    c.movingFace params.axisMode).toOption
  return {
    tail := ⟨c.prefab, pose, [c.movingFace], some (c.anchorFace, c.movingFace)⟩
    before := { g.tail with used := g.tail.used ++ [c.anchorFace] } :: g.before
    usedPrefabs := g.exhausted params }

/-- Continues a chain by at most the given number of tiles, the last of which takes the final
place. -/
def grow (prefabs : Array (TileShape α)) (params : ChainParams) :
    Nat → Growing α → ρ → Growing α × ρ
  | 0, g, s => (g, s)
  | wanted + 1, g, s =>
    let candidates := Candidate.collect prefabs g.tail.prefab g.tail.used params
      (g.exhausted params) (wanted = 0)
    match Candidate.pick candidates s with
    | (none, s) => (g, s)
    | (some c, s) =>
      match g.put? prefabs params c with
      | none => (g, s)
      | some g => grow prefabs params wanted g s

/-- The height of tiles: their sum in stacks, the greatest of them elsewhere. -/
def heightOf (mode : AxisMode) (heights : List α) : α :=
  if mode = .y then Scalar.sum heights else heights.foldl max 0

/-- Refuses a prefab that is named and does not exist. -/
def checkIndex (role : String) (index : Option Nat) (count : Nat) : Except ChainError Unit :=
  match index with
  | none => .ok ()
  | some i => if i < count then .ok () else .error (.indexOutOfRange role i count)

/-- Refuses parameters that no chain can be grown by.  A chain without tiles needs no prefabs. -/
def check (count : Nat) (params : ChainParams) : Except ChainError Unit :=
  if params.count = 0 then .ok ()
  else if count = 0 then .error .noPrefabs
  else do
    checkIndex "first" params.first count
    checkIndex "last" params.last count

/-- The first tile of a chain. -/
def firstTile (count : Nat) (params : ChainParams) (s : ρ) : ChainTile α × ρ :=
  let (prefab, s) := match params.first with
    | some i => (i, s)
    | none => RandomSource.nextIndex count s
  if params.randomStartRotation then
    let (turns, s) := RandomSource.nextIndex 4 s
    let rotation : Quat α := .ofYaw ((turns : α) * ((90 : Nat) : α))
    (⟨prefab, { (Transform.identity : Transform α) with rotation }, [], none⟩, s)
  else (⟨prefab, .identity, [], none⟩, s)

/-- Grows a chain. -/
def generate (prefabs : Array (TileShape α)) (params : ChainParams) (s : ρ) :
    Except ChainError (Chain α) × ρ :=
  match check prefabs.size params with
  | .error e => (.error e, s)
  | .ok () =>
    if params.count = 0 then (.ok ⟨[], 0⟩, s)
    else
      let (first, s) := firstTile prefabs.size params s
      let (g, s) := grow prefabs params (params.count - 1) ⟨first, [], []⟩ s
      let heights := g.tiles.filterMap fun t => (prefabs[t.prefab]?).map fun p => p.size.y
      (.ok ⟨g.tiles, heightOf params.axisMode heights⟩, s)

/-- The box that a placed tile fills. -/
def tileBox (shape : TileShape α) (pose : Transform α) : Box α :=
  (Box.ofOriginSize .zero shape.size).transformed pose.toMat4

/-- The box around all tiles of a chain. -/
def bounds? (prefabs : Array (TileShape α)) (c : Chain α) : Option (Box α) :=
  Box.unionAll? (c.tiles.filterMap fun t => (prefabs[t.prefab]?).map fun p => tileBox p t.pose)

end Chain

end SpatialGrammar
