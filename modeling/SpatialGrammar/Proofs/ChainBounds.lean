/-
SpatialGrammar/Proofs/ChainBounds.lean

The box around a chain.

A chain fills the images of its tiles (`Chain.filled`), and its box is the smallest box that
holds them.  That says which box it is, so it cannot matter in which order the tiles are
gone through (`Chain.bounds?_perm`).

In a scene the tiles of a generator are entities of their own, and their boxes are found by
way of the handles that the generator lists.  Entering the tiles gives handles in the order of
the chain, and leaves the shape and the place of what has been entered alone
(`Scene.tileBox?_insertTiles`); so the boxes of the scene are those of the chain.
-/
import SpatialGrammar.Proofs.BoxOrder
import SpatialGrammar.Proofs.ChainPoses
import SpatialGrammar.Proofs.PlacementAlgebra
import SpatialGrammar.Proofs.SceneStock

namespace SpatialGrammar

/-! ### The space that a chain fills -/

theorem Box.ordered_ofOriginSize (origin size : Vec3 ℝ) : (Box.ofOriginSize origin size).Ordered :=
  Box.ordered_hull _ _

namespace Chain

variable {prefabs : Array (TileShape ℝ)} {ch : Chain ℝ} {b : Box ℝ}

/-- The box of a tile of a chain, if its prefab is there. -/
def box? {α : Type} [Scalar α] (prefabs : Array (TileShape α)) (t : ChainTile α) : Option (Box α) :=
  (prefabs[t.prefab]?).map fun p => tileBox p t.pose

theorem bounds?_eq {α : Type} [Scalar α] (prefabs : Array (TileShape α)) (ch : Chain α) :
    ch.bounds? prefabs = Box.unionAll? (ch.tiles.filterMap (box? prefabs)) := rfl

/-- The points of all tiles of a chain, where they are placed. -/
def filled (prefabs : Array (TileShape ℝ)) (ch : Chain ℝ) : Set (Vec3 ℝ) :=
  {q | ∃ t ∈ ch.tiles, ∃ shape, prefabs[t.prefab]? = some shape ∧
    ∃ p ∈ (Box.ofOriginSize .zero shape.size).points, t.pose.toMat4.transformPoint p = q}

theorem mem_boxes : b ∈ ch.tiles.filterMap (box? prefabs) ↔
    ∃ t ∈ ch.tiles, ∃ shape, prefabs[t.prefab]? = some shape ∧ tileBox shape t.pose = b := by
  simp only [box?, List.mem_filterMap, Option.map_eq_some_iff]

theorem tileBox_le_iff {shape : TileShape ℝ} {pose : Transform ℝ} : tileBox shape pose ≤ b ↔
    ∀ p ∈ (Box.ofOriginSize .zero shape.size).points, pose.toMat4.transformPoint p ∈ b.points := by
  rw [tileBox, (Box.ordered_ofOriginSize _ _).transformed_le_iff, Set.image_subset_iff]
  rfl

/-- A box that holds the boxes of the tiles is one that holds their points. -/
theorem boxes_le_iff :
    (∀ a ∈ ch.tiles.filterMap (box? prefabs), a ≤ b) ↔ ch.filled prefabs ⊆ b.points := by
  constructor
  · rintro h _ ⟨t, ht, shape, hshape, p, hp, rfl⟩
    exact tileBox_le_iff.mp (h _ (mem_boxes.mpr ⟨t, ht, shape, hshape, rfl⟩)) p hp
  · intro h a ha
    obtain ⟨t, ht, shape, hshape, rfl⟩ := mem_boxes.mp ha
    exact tileBox_le_iff.mpr fun p hp => h ⟨t, ht, shape, hshape, p, hp, rfl⟩

/-- **The box of a chain is told by what it has to hold.** -/
theorem bounds?_le_iff (h : ch.bounds? prefabs = some b) {c : Box ℝ} :
    b ≤ c ↔ ch.filled prefabs ⊆ c.points :=
  (Box.unionAll?_le_iff h).trans boxes_le_iff

/-- A tile fills a point at least. -/
theorem filled_nonempty {t : ChainTile ℝ} {shape : TileShape ℝ} (ht : t ∈ ch.tiles)
    (hshape : prefabs[t.prefab]? = some shape) : (ch.filled prefabs).Nonempty := by
  have hlow :
      (Box.ofOriginSize .zero shape.size).low ∈ (Box.ofOriginSize .zero shape.size).points :=
    Box.mem_points.mpr ⟨le_rfl, Box.ordered_ofOriginSize _ _⟩
  exact ⟨_, t, ht, shape, hshape, _, hlow, rfl⟩

/-- A chain has no box just if it fills nothing. -/
theorem bounds?_eq_none_iff : ch.bounds? prefabs = none ↔ ch.filled prefabs = ∅ := by
  have hnone : ∀ bs : List (Box ℝ), Box.unionAll? bs = none ↔ bs = [] := by
    rintro (- | ⟨b, bs⟩) <;> simp [Box.unionAll?]
  rw [bounds?_eq, hnone, List.eq_nil_iff_forall_not_mem]
  constructor
  · refine fun h => Set.eq_empty_of_forall_notMem ?_
    rintro _ ⟨t, ht, shape, hshape, -⟩
    exact h _ (mem_boxes.mpr ⟨t, ht, shape, hshape, rfl⟩)
  · intro h a ha
    obtain ⟨t, ht, shape, hshape, -⟩ := mem_boxes.mp ha
    exact (filled_nonempty ht hshape).ne_empty h

/-- Which box it is depends on what the chain fills, and on nothing else. -/
theorem bounds?_congr {ch' : Chain ℝ} (h : ch.filled prefabs = ch'.filled prefabs) :
    ch.bounds? prefabs = ch'.bounds? prefabs := by
  rcases hb : ch.bounds? prefabs with - | b <;> rcases hb' : ch'.bounds? prefabs with - | b'
  · rfl
  · rw [bounds?_eq_none_iff, h, ← bounds?_eq_none_iff, hb'] at hb
    cases hb
  · rw [bounds?_eq_none_iff, ← h, ← bounds?_eq_none_iff, hb] at hb'
    cases hb'
  · -- two boxes are one if the same boxes hold them
    refine congrArg some (eq_of_forall_ge_iff fun c => ?_)
    rw [bounds?_le_iff hb, bounds?_le_iff hb', h]

/-- **The order of the tiles does not matter for the box.** -/
theorem bounds?_perm {ch' : Chain ℝ} (h : ch.tiles.Perm ch'.tiles) :
    ch.bounds? prefabs = ch'.bounds? prefabs := by
  apply bounds?_congr
  ext q
  simp only [filled, h.mem_iff]

/-- Placing a tile of a generated chain is what its matrix does. -/
theorem transformPoint_of_generate {ρ : Type} [RandomSource ρ ℝ] {params : ChainParams} {s : ρ}
    (h : (generate prefabs params s).1 = .ok ch) :
    ∀ t ∈ ch.tiles, ∀ p, t.pose.toMat4.transformPoint p = t.pose.transformPoint p := by
  intro t ht p
  obtain ⟨k, hk⟩ := upright_of_generate h t ht
  apply Transform.transformPoint_toMat4
  rw [hk.rotation]
  exact Quat.isUnit_ofYaw _

end Chain

/-! ### The tiles of a generator -/

/-- Where a list gives a list, that one is as long. -/
theorem length_of_mapM {β γ : Type} {f : β → Option γ} {l : List β} {cs : List γ}
    (h : l.mapM f = some cs) : cs.length = l.length := by
  induction l generalizing cs with
  | nil =>
    obtain rfl := Option.some.inj h
    rfl
  | cons b l ih =>
    rw [List.mapM_cons] at h
    obtain ⟨c, -, h⟩ := Option.bind_eq_some_iff.mp h
    obtain ⟨cs', hcs', h⟩ := Option.bind_eq_some_iff.mp h
    obtain rfl := Option.some.inj h
    exact congrArg Nat.succ (ih hcs')

namespace Scene

variable {α ρ : Type} [Scalar α]

/-- The box of an entity that is a tile, in the frame of its parent. -/
def tileBox? (s : Scene α) (id : EntityId) : Option (Box α) :=
  (s.get? id).bind fun e => match e.kind with
    | .tile shape => some (Chain.tileBox shape e.pose)
    | _ => none

/-- The box of a generator is that of the tiles which it lists. -/
theorem generatedBounds?_eq {s : Scene α} {generator : EntityId} {tiles : List EntityId}
    {height : α} (h : (s.get? generator).map Entity.kind = some (.generator tiles height)) :
    s.generatedBounds? generator = Box.unionAll? (tiles.filterMap s.tileBox?) := by
  unfold generatedBounds?
  rw [h]
  refine congrArg Box.unionAll? (List.filterMap_congr fun t _ => ?_)
  unfold tileBox?
  cases s.get? t <;> rfl

/-- A tile keeps its box if its shape and its pose are kept. -/
theorem tileBox?_of_map {s t : Scene α} {id : EntityId} {f : Entity α → Entity α}
    (h : t.get? id = (s.get? id).map f) (hkind : ∀ e, (f e).kind = e.kind)
    (hpose : ∀ e, (f e).pose = e.pose) : t.tileBox? id = s.tileBox? id := by
  unfold tileBox?
  rw [h, Option.bind_map]
  congr 1
  funext e
  simp only [Function.comp, hkind, hpose]

variable {names : Array String} {shapes : Array (TileShape α)} {g : EntityId} {s : Scene α}

/-- Entering further tiles leaves the boxes of those that are there alone. -/
theorem tileBox?_insertTiles (hg : g < s.entities.size) (ts : List (ChainTile α)) {id : EntityId}
    (hid : id < s.entities.size) :
    (insertTiles names shapes g ts s).2.tileBox? id = s.tileBox? id := by
  obtain ⟨_, -, -, -, hold, -⟩ := insertTiles_spec names shapes ts hg
  exact tileBox?_of_map (hold id hid) (fun _ => rfl) (fun _ => rfl)

/-- A tile that is entered has the box of its shape where it stands. -/
theorem tileBox?_insertUnder (hg : g < s.entities.size) {e : Entity α} {shape : TileShape α}
    (hk : e.kind = .tile shape) :
    (s.insertUnder e g).2.tileBox? s.entities.size = some (Chain.tileBox shape e.pose) := by
  unfold tileBox?
  rw [get?_insertUnder hg, if_pos rfl, Option.bind_some, hk]

/-- **The tiles that are entered have the boxes of the chain**, in the same order. -/
theorem filterMap_insertTiles (hsize : shapes.size = names.size) (hg : g < s.entities.size)
    (ts : List (ChainTile α)) :
    (insertTiles names shapes g ts s).1.filterMap (insertTiles names shapes g ts s).2.tileBox? =
      ts.filterMap (Chain.box? shapes) := by
  induction ts generalizing s with
  | nil => rfl
  | cons t ts ih =>
    rcases hshape : shapes[t.prefab]? with - | shape
    · have hskip : insertTiles names shapes g (t :: ts) s = insertTiles names shapes g ts s := by
        rcases hname : names[t.prefab]? with - | name <;> simp only [insertTiles, hname, hshape]
      have hbox : Chain.box? shapes t = none := by
        rw [Chain.box?, hshape, Option.map_none]
      rw [hskip, ih hg, List.filterMap_cons_none hbox]
    · -- there are as many names as shapes
      obtain ⟨name, hname⟩ : ∃ name, names[t.prefab]? = some name := by
        have hlt := (Array.getElem?_eq_some_iff.mp hshape).1
        exact ⟨_, Array.getElem?_eq_getElem (hsize ▸ hlt)⟩
      let e : Entity α :=
        { Entity.new name (some name) (EntityKind.tile shape) with pose := t.pose }
      have henter : insertTiles names shapes g (t :: ts) s =
          (s.entities.size :: (insertTiles names shapes g ts (s.insertUnder e g).2).1,
            (insertTiles names shapes g ts (s.insertUnder e g).2).2) := by
        simp only [insertTiles, hname, hshape]
        rfl
      have hlater := size_insertUnder s e g
      have hg' : g < (s.insertUnder e g).2.entities.size := hlater ▸ Nat.lt_succ_of_lt hg
      -- the tiles after this one leave its box alone
      have hfirst : (insertTiles names shapes g ts (s.insertUnder e g).2).2.tileBox?
          s.entities.size = some (Chain.tileBox shape t.pose) := by
        rw [tileBox?_insertTiles hg' ts (hlater ▸ Nat.lt_succ_self _)]
        exact tileBox?_insertUnder hg rfl
      have hbox : Chain.box? shapes t = some (Chain.tileBox shape t.pose) := by
        rw [Chain.box?, hshape, Option.map_some]
      rw [henter, List.filterMap_cons_some hfirst, ih hg', List.filterMap_cons_some hbox]

variable [RandomSource ρ α] {p : GeneratorPrefab} {listed : List (TileShape α)} {ch : Chain α}

/-- A generator that is filled has the box of its chain. -/
theorem generatedBounds?_fillGenerator {e : Entity α} (he : s.get? g = some e)
    (hlisted : s.shapes? p = some listed) {source : ρ}
    (hgenerate : (Chain.generate listed.toArray p.params source).1 = .ok ch) :
    (fillGenerator g p s source).1.generatedBounds? g = ch.bounds? listed.toArray := by
  have hg := lt_size he
  have hsize : listed.toArray.size = p.tiles.toArray.size := by
    simpa using length_of_mapM hlisted
  obtain ⟨n, hids, -, -, hold, -⟩ :=
    insertTiles_spec p.tiles.toArray listed.toArray ch.tiles hg
  have hboxes := filterMap_insertTiles hsize hg ch.tiles
  generalize hentered : insertTiles p.tiles.toArray listed.toArray g ch.tiles s = entered at *
  obtain ⟨ids, t⟩ := entered
  have hfill : (fillGenerator g p s source).1 =
      t.modify g fun e => { e with kind := .generator ids ch.height } := by
    obtain ⟨source', hcase⟩ : ∃ source',
        Chain.generate listed.toArray p.params source = (.ok ch, source') :=
      ⟨_, Prod.ext hgenerate rfl⟩
    unfold fillGenerator
    simp only [hlisted, hcase, hentered]
  have hkind : ((fillGenerator g p s source).1.get? g).map Entity.kind =
      some (.generator ids ch.height) := by
    rw [hfill, get?_modify, if_pos rfl, hold g hg, he]
    rfl
  -- the handles of the tiles come after that of the generator, which alone is changed
  have hsame : ∀ id ∈ ids, (fillGenerator g p s source).1.tileBox? id = t.tileBox? id := by
    intro id hid
    dsimp only at hids
    rw [hids, List.mem_range'_1] at hid
    refine tileBox?_of_map (f := fun e => e) ?_ (fun _ => rfl) (fun _ => rfl)
    rw [hfill, get?_modify, if_neg (Nat.ne_of_gt (Nat.lt_of_lt_of_le hg hid.1)), Option.map_id']
  rw [generatedBounds?_eq hkind, List.filterMap_congr hsame, hboxes]
  rfl

/-- **An object that is made from a generator has the box of the chain that is grown for it.** -/
theorem generatedBounds?_spawn {request : SpawnRequest} {source : ρ} {q : Prefab α}
    (hq : (s.prefabFor request source).1 = some q) (hk : q.kind = .generator p)
    (hlisted : s.shapes? p = some listed)
    (hgenerate :
      (Chain.generate listed.toArray p.params (s.prefabFor request source).2).1 = .ok ch) :
    (s.spawn request source).2.1.generatedBounds? (s.spawn request source).1.1 =
      ch.bounds? listed.toArray := by
  obtain ⟨t, e, hstock, he, -, heq⟩ := s.spawn_filled hq hk
  rw [heq]
  exact generatedBounds?_fillGenerator he ((shapes?_congr hstock p).trans hlisted) hgenerate

end Scene

/-! ### The laws together -/

namespace Chain

/-- What the box of a chain is. -/
structure Bounded (prefabs : Array (TileShape ℝ)) (ch : Chain ℝ) : Prop where
  /-- There is one unless the chain fills nothing. -/
  none_iff : ch.bounds? prefabs = none ↔ ch.filled prefabs = ∅
  /-- It is the smallest box that holds the points of all tiles. -/
  hull : ∀ b, ch.bounds? prefabs = some b → b.IsHull (ch.filled prefabs)
  /-- It does not depend on the order of the tiles. -/
  perm : ∀ ch' : Chain ℝ, ch.tiles.Perm ch'.tiles → ch'.bounds? prefabs = ch.bounds? prefabs

/-- **Bounds hold what they bound, and no box that does is smaller.**  This is so of the image of a
box under an affine map, of the union of two boxes and of a chain, in any order of its tiles; where
a chain has been generated, placing a tile is what its matrix does, and a generator that gets the
chain in a scene has the same box there. -/
theorem bounds_tight (ρ : Type) [RandomSource ρ ℝ] :
    (∀ (b : Box ℝ) (m : Mat4 ℝ), (∀ p ∈ b.points, m.transformPoint p ∈ (b.transformed m).points) ∧
      (b.Ordered → (b.transformed m).IsHull (m.transformPoint '' b.points))) ∧
    (∀ a b : Box ℝ, a.points ∪ b.points ⊆ (a.union b).points ∧
      (a.Ordered → b.Ordered → (a.union b).IsHull (a.points ∪ b.points))) ∧
    (∀ (prefabs : Array (TileShape ℝ)) (ch : Chain ℝ), ch.Bounded prefabs) ∧
    (∀ (prefabs : Array (TileShape ℝ)) (params : ChainParams) (source : ρ) (ch : Chain ℝ),
      (generate prefabs params source).1 = .ok ch →
      ∀ t ∈ ch.tiles, ∀ p, t.pose.toMat4.transformPoint p = t.pose.transformPoint p) ∧
    ∀ (s : Scene ℝ) (request : SpawnRequest) (source : ρ) (q : Prefab ℝ) (g : GeneratorPrefab)
      (listed : List (TileShape ℝ)) (ch : Chain ℝ),
      (s.prefabFor request source).1 = some q → q.kind = .generator g →
      s.shapes? g = some listed →
      (generate listed.toArray g.params (s.prefabFor request source).2).1 = .ok ch →
      (s.spawn request source).2.1.generatedBounds? (s.spawn request source).1.1 =
        ch.bounds? listed.toArray := by
  refine ⟨fun b m => ⟨?_, ?_⟩, fun a b => ⟨?_, ?_⟩, fun prefabs ch => ⟨?_, ?_, ?_⟩, ?_, ?_⟩
  · exact fun p hp => Box.transformPoint_mem_transformed hp
  · exact fun hb => hb.isHull_transformed m
  · exact Set.union_subset (Box.points_mono le_sup_left) (Box.points_mono le_sup_right)
  · exact fun ha hb => ha.isHull_union hb
  · exact bounds?_eq_none_iff
  · exact fun b hb => Box.isHull_of_le_iff fun c => bounds?_le_iff hb
  · exact fun ch' h => (bounds?_perm h).symm
  · exact fun prefabs params source ch h => transformPoint_of_generate h
  · exact fun s request source q g listed ch hq hk hlisted hgenerate =>
      Scene.generatedBounds?_spawn hq hk hlisted hgenerate

/-- Two boxes and a generator of three tiles. -/
theorem bounds_tight_corner :
    let a : Box ℝ := .point .zero
    let b : Box ℝ := ⟨.zero, .one⟩
    let s : Scene ℝ := .empty (.ofList [⟨"A", .tile (.uniform .one)⟩,
      ⟨"B", .tile (.uniform ⟨2, 1, 1⟩)⟩,
      ⟨"G", .generator ⟨⟨3, .xz, some 1, none, true, true⟩, ["A", "B"]⟩⟩])
      (.ofList [⟨"Corner", ["G"]⟩]) .zero
    a.Ordered ∧ b.Ordered ∧ (a.union b).IsHull (a.points ∪ b.points) ∧
      (∀ m, (b.transformed m).IsHull (m.transformPoint '' b.points)) ∧
      ∃ ch box, (generate #[.uniform .one, .uniform ⟨2, 1, 1⟩] ⟨3, .xz, some 1, none, true, true⟩
          (⟨0⟩ : Steady)).1 = .ok ch ∧ ch.tiles.length = 3 ∧
        (s.spawn ⟨"Corner", ""⟩ (⟨0⟩ : Steady)).2.1.generatedBounds?
          (s.spawn ⟨"Corner", ""⟩ (⟨0⟩ : Steady)).1.1 = some box ∧
        box.IsHull (ch.filled #[.uniform .one, .uniform ⟨2, 1, 1⟩]) := by
  intro a b s
  obtain ⟨himage, hunion, hchain, -, hscene⟩ := bounds_tight Steady
  have ha : a.Ordered := Box.ordered_point .zero
  have hb : b.Ordered := ⟨zero_le_one, zero_le_one, zero_le_one⟩
  obtain ⟨ch, hch, hplan⟩ := exists_plan (by decide +kernel :
    (generate #[.uniform .one, .uniform ⟨2, 1, 1⟩] ⟨3, .xz, some 1, none, true, true⟩
      (⟨0⟩ : Steady)).1.toOption.map plan =
      some [(1, none), (0, some (.xPos, .xPos)), (0, some (.zNeg, .xPos))])
  have hbounds := hscene s ⟨"Corner", ""⟩ ⟨0⟩ _ _ _ ch rfl rfl rfl hch
  have hlength : ch.tiles.length = 3 := by
    simpa [plan] using congrArg List.length hplan
  obtain ⟨t, ht, hprefab⟩ : ∃ t ∈ ch.tiles, t.prefab = 1 := by
    have hfirst : (1, none) ∈ ch.plan := hplan ▸ List.mem_cons_self
    obtain ⟨t, ht, heq⟩ := List.mem_map.mp hfirst
    exact ⟨t, ht, congrArg Prod.fst heq⟩
  obtain ⟨box, hbox⟩ : ∃ box, ch.bounds? #[.uniform .one, .uniform ⟨2, 1, 1⟩] = some box := by
    refine Option.ne_none_iff_exists'.mp fun hnone => ?_
    have hshape : (#[.uniform .one, .uniform ⟨2, 1, 1⟩] : Array (TileShape ℝ))[t.prefab]? =
        some (.uniform ⟨2, 1, 1⟩) := by
      rw [hprefab]
      rfl
    exact (filled_nonempty ht hshape).ne_empty ((hchain _ ch).none_iff.mp hnone)
  exact ⟨ha, hb, (hunion a b).2 ha hb, fun m => (himage b m).2 hb, ch, box, hch, hlength,
    hbounds.trans hbox, (hchain _ ch).hull box hbox⟩

end Chain

end SpatialGrammar
