/-
SpatialGrammar/Proofs/CrossReferences.lean

What a valid document makes sure of.

`Document.Sound` says it in so many words: links name prefabs that exist, generators list
tiles, sizes are not negative.  The check passes the sound documents and no others
(`Document.check_eq_ok_iff`).

The check searches lists from the beginning, while a scene looks names up in indices in
which the first declaration counts.  Both find the same (`Document.get?_catalog`,
`Document.variants?_links`), so in a scene of a valid document no name that was checked is
looked up in vain.
-/
import SpatialGrammar.Document.Execution
import SpatialGrammar.Document.Validity
import SpatialGrammar.Proofs.IndexDraws
import SpatialGrammar.Proofs.SceneStock

namespace SpatialGrammar

variable {α ρ : Type}

/-! ### Sound documents -/

/-- A prefab counts as a tile if it has the shape of one. -/
theorem Prefab.isTile_iff {p : Prefab α} : p.isTile = true ↔ ∃ shape, p.kind = .tile shape := by
  unfold isTile
  split <;> simp [*]

namespace Document

/-- Checks made one after another pass just if each of them passes. -/
theorem seq_eq_ok_iff {x y : Except DocumentError Unit} :
    (do x; y) = .ok () ↔ x = .ok () ∧ y = .ok () := by
  rcases x with _ | ⟨⟩ <;> simp [bind, Except.bind]

theorem forM_eq_ok_iff {β : Type} {l : List β} {f : β → Except DocumentError Unit} :
    l.forM f = .ok () ↔ ∀ b ∈ l, f b = .ok () := by
  induction l with
  | nil => simp [List.forM, pure, Except.pure]
  | cons b l ih =>
    rw [List.forM, seq_eq_ok_iff, ih, List.forall_mem_cons]

variable {d : Document α}

theorem checkLink_eq_ok_iff {l : Link} : d.checkLink l = .ok () ↔
    l.prefabs ≠ [] ∧ ∀ name ∈ l.prefabs, ∃ p, d.prefab? name = some p := by
  unfold checkLink
  split
  · next hempty => simp [hempty]
  · next hsome =>
    split
    · next missing hmissing =>
      refine iff_of_false (by rintro ⟨⟩) fun h => ?_
      obtain ⟨p, hp⟩ := h.2 missing (List.mem_of_find?_eq_some hmissing)
      simpa [hp] using List.find?_some hmissing
    · next hnone =>
      refine iff_of_true rfl ⟨hsome, fun name hname => Option.ne_none_iff_exists'.mp ?_⟩
      simpa using List.find?_eq_none.mp hnone name hname

theorem checkGenerator_eq_ok_iff {name : String} {g : GeneratorPrefab} :
    d.checkGenerator name g = .ok () ↔
      ∀ listed ∈ g.tiles, ∃ q shape, d.prefab? listed = some q ∧ q.kind = .tile shape := by
  unfold checkGenerator
  split
  · next listed hlisted =>
    refine iff_of_false (by rintro ⟨⟩) fun h => ?_
    obtain ⟨q, shape, hq, hk⟩ := h listed (List.mem_of_find?_eq_some hlisted)
    have htile : q.isTile = true := Prefab.isTile_iff.mpr ⟨shape, hk⟩
    simpa [hq, htile] using List.find?_some hlisted
  · next hnone =>
    refine iff_of_true rfl fun listed hlisted => ?_
    have hfound := List.find?_eq_none.mp hnone listed hlisted
    rcases hq : d.prefab? listed with - | q
    · simp [hq] at hfound
    · have htile : q.isTile = true := by simpa [hq] using hfound
      obtain ⟨shape, hk⟩ := Prefab.isTile_iff.mp htile
      exact ⟨q, shape, rfl, hk⟩

variable [Scalar α]

/-- What the check of a document makes sure of. -/
structure Sound (d : Document α) : Prop where
  repeated : d.repetitions ≠ 0
  /-- Links name prefabs, and these exist. -/
  link : ∀ l ∈ d.links, l.prefabs ≠ [] ∧ ∀ name ∈ l.prefabs, ∃ p, d.prefab? name = some p
  /-- Generators list nothing but tiles. -/
  listed : ∀ p ∈ d.prefabs, ∀ g, p.kind = .generator g →
    ∀ name ∈ g.tiles, ∃ q shape, d.prefab? name = some q ∧ q.kind = .tile shape
  tile_size : ∀ p ∈ d.prefabs, ∀ shape, p.kind = .tile shape → shape.size.hasNegative = false
  space_size : ∀ s, d.space = some s → s.size.hasNegative = false
  scatter_size : ∀ s, d.scatter = some s → s.size.hasNegative = false

omit d in
theorem checkSize_eq_ok_iff {what : String} {size : Vec3 α} :
    checkSize what size = .ok () ↔ size.hasNegative = false := by
  unfold checkSize
  split <;> simp [*]

theorem checkPrefab_eq_ok_iff {p : Prefab α} : d.checkPrefab p = .ok () ↔
    (∀ g, p.kind = .generator g →
      ∀ listed ∈ g.tiles, ∃ q shape, d.prefab? listed = some q ∧ q.kind = .tile shape) ∧
    ∀ shape, p.kind = .tile shape → shape.size.hasNegative = false := by
  unfold checkPrefab
  split
  · next hk => simp [hk]
  · next shape hk => simp [hk, checkSize_eq_ok_iff]
  · next g hk => simp [hk, checkGenerator_eq_ok_iff]

/-- **The check passes the sound documents and no others.** -/
theorem check_eq_ok_iff : d.check = .ok () ↔ d.Sound := by
  unfold check
  split
  · next hzero =>
    refine iff_of_false (by rintro ⟨⟩) fun h => h.repeated hzero
  · next hrepeated =>
    simp only [seq_eq_ok_iff, forM_eq_ok_iff, checkLink_eq_ok_iff, checkPrefab_eq_ok_iff,
      checkSize_eq_ok_iff, Option.mem_toList]
    constructor
    · rintro ⟨hlinks, hprefabs, hspace, hscatter⟩
      exact ⟨hrepeated, hlinks, fun p hp => (hprefabs p hp).1, fun p hp => (hprefabs p hp).2,
        hspace, hscatter⟩
    · intro h
      exact ⟨h.link, fun p hp => ⟨h.listed p hp, h.tile_size p hp⟩, h.space_size,
        h.scatter_size⟩

end Document

/-! ### Look-up by name -/

/-- Where each member of a list gives something, the list gives a list. -/
theorem exists_mapM {β γ : Type} {f : β → Option γ} {l : List β} (h : ∀ b ∈ l, ∃ c, f b = some c) :
    ∃ cs, l.mapM f = some cs ∧ cs.length = l.length := by
  induction l with
  | nil => exact ⟨[], rfl, rfl⟩
  | cons b l ih =>
    obtain ⟨hb, hl⟩ := List.forall_mem_cons.mp h
    obtain ⟨c, hc⟩ := hb
    obtain ⟨cs, hcs, hlength⟩ := ih hl
    exact ⟨c :: cs, by simp [hc, hcs], by simp [hlength]⟩

namespace LinkTable

theorem chosen?_lt {args : List Char} {count i : Nat} (h : chosen? args count = some i) :
    i < count := by
  unfold chosen? at h
  split at h
  · cases h
  · split at h
    · cases h
    · split at h
      · next hi =>
        obtain rfl := Option.some.inj h
        exact hi.2
      · cases h

variable [RandomSource ρ α]

/-- An object gets one of the variants of its name. -/
theorem mem_of_resolve {t : LinkTable} {symbol args name : String} {s : ρ}
    (h : (t.resolve symbol args s).1 = some name) :
    ∃ variants, t.variants? symbol = some variants ∧ name ∈ variants := by
  unfold resolve at h
  split at h
  · cases h
  · next variants hvariants =>
    split at h
    · cases h
    · exact ⟨variants, hvariants, List.mem_of_getElem? h⟩

/-- Where there are variants it does get one, whether or not its arguments choose it. -/
theorem exists_resolve (hρ : RandomSource.InBounds ρ) {t : LinkTable} {symbol : String}
    {variants : List String} (hvariants : t.variants? symbol = some variants)
    (hne : variants ≠ []) (args : String) (s : ρ) :
    ∃ name, (t.resolve symbol args s).1 = some name := by
  have hget {i : Nat} (hi : i < variants.length) : ∃ name, variants[i]? = some name :=
    ⟨variants[i], List.getElem?_eq_getElem hi⟩
  unfold resolve
  simp only [hvariants, if_neg hne]
  split
  · next i hchosen => exact hget (chosen?_lt hchosen)
  · exact hget (hρ _ _ (List.length_pos_iff.mpr hne))

end LinkTable

/-- A tile is found where the prefab that is found is one. -/
theorem PrefabCatalog.tile?_eq_some {c : PrefabCatalog α} {name : String} {p : Prefab α}
    {shape : TileShape α} (h : c.get? name = some p) (hk : p.kind = .tile shape) :
    c.tile? name = some shape := by
  obtain ⟨name', kind⟩ := p
  obtain rfl : kind = .tile shape := hk
  simp [tile?, h]

/-! ### Scenes of a document -/

variable [Scalar α] {d : Document α} {s : Scene α}

/-- A scene finds the prefab of a name that the document finds. -/
theorem Document.get?_catalog (h : s.stock = d.buildScene.stock) (name : String) :
    s.catalog.get? name = d.prefab? name := by
  obtain ⟨hcatalog, -⟩ := Prod.mk.inj h
  rw [hcatalog]
  exact (Index.get?_ofList_map Prefab.name id d.prefabs name).trans Option.map_id_apply

/-- A scene finds the variants in the first link of a name. -/
theorem Document.variants?_links (h : s.stock = d.buildScene.stock) (symbol : String) :
    s.links.variants? symbol = (d.links.find? fun l => l.symbol = symbol).map Link.prefabs := by
  obtain ⟨-, hlinks⟩ := Prod.mk.inj h
  rw [hlinks]
  exact Index.get?_ofList_map Link.symbol Link.prefabs d.links symbol

theorem Document.Sound.exists_tile (hd : d.Sound) (hs : s.stock = d.buildScene.stock) {p : Prefab α}
    (hp : p ∈ d.prefabs) {g : GeneratorPrefab} (hk : p.kind = .generator g) :
    ∀ name ∈ g.tiles, ∃ shape, s.catalog.tile? name = some shape := by
  intro name hname
  obtain ⟨q, shape, hq, hqk⟩ := hd.listed p hp g hk name hname
  exact ⟨shape, PrefabCatalog.tile?_eq_some ((get?_catalog hs name).trans hq) hqk⟩

theorem Document.Sound.exists_shapes (hd : d.Sound) (hs : s.stock = d.buildScene.stock)
    {p : Prefab α} (hp : p ∈ d.prefabs) {g : GeneratorPrefab} (hk : p.kind = .generator g) :
    ∃ shapes, s.shapes? g = some shapes ∧ shapes.length = g.tiles.length :=
  exists_mapM (hd.exists_tile hs hp hk)

variable [RandomSource ρ α]

/-- What is so where no name is looked up in vain. -/
structure Document.Resolves (ρ : Type) [RandomSource ρ α] (d : Document α) (s : Scene α) :
    Prop where
  /-- An object whose name is linked is made from a prefab of the first link for it. -/
  linked : ∀ (request : SpawnRequest) (source : ρ), (∃ l ∈ d.links, l.symbol = request.name) →
    ∃ l name p e, (d.links.find? fun l => l.symbol = request.name) = some l ∧ name ∈ l.prefabs ∧
      d.prefab? name = some p ∧
      (s.spawn request source).2.1.get? (s.spawn request source).1.1 = some e ∧
      e.prefabName = some name ∧ p.kind.Makes e.kind
  /-- A name that is chosen or drawn for an object is that of a prefab. -/
  known : ∀ (request : SpawnRequest) (source : ρ) (name : String),
    (s.links.resolve request.name request.args source).1 = some name →
      ∃ p, s.catalog.get? name = some p
  /-- Whatever a generator lists is a tile. -/
  listed : ∀ p ∈ s.catalog.prefabs, ∀ g, p.kind = .generator g →
    (∀ name ∈ g.tiles, ∃ shape, s.catalog.tile? name = some shape) ∧
      ∃ shapes, s.shapes? g = some shapes ∧ shapes.length = g.tiles.length

/-- In a scene with the stock of a sound document no name is looked up in vain. -/
theorem Document.Sound.finds (hd : d.Sound) (hρ : RandomSource.InBounds ρ)
    (hs : s.stock = d.buildScene.stock) : d.Resolves ρ s where
  linked := by
    rintro request source ⟨l₀, hl₀, hsymbol⟩
    have hlinked : (d.links.find? fun l => l.symbol = request.name).isSome := by
      rw [List.find?_isSome]
      exact ⟨l₀, hl₀, by simpa using hsymbol⟩
    obtain ⟨l, hl⟩ := Option.isSome_iff_exists.mp hlinked
    obtain ⟨hne, hknown⟩ := hd.link l (List.mem_of_find?_eq_some hl)
    have hvariants : s.links.variants? request.name = some l.prefabs := by
      rw [variants?_links hs, hl]
      rfl
    obtain ⟨name, hresolve⟩ :=
      LinkTable.exists_resolve hρ hvariants hne request.args source
    obtain ⟨variants, hvariants', hname⟩ := LinkTable.mem_of_resolve hresolve
    obtain rfl := Option.some.inj (hvariants.symm.trans hvariants')
    obtain ⟨p, hp⟩ := hknown name hname
    have hfor : (s.prefabFor request source).1 = some p := by
      show ((s.links.resolve request.name request.args source).1).bind s.catalog.get? = some p
      rw [hresolve]
      exact (get?_catalog hs name).trans hp
    obtain ⟨e, he, -, hprefab, hmakes⟩ := s.spawn_made request source
    have hpname : p.name = name := by simpa using List.find?_some hp
    rw [hfor, Option.map_some, hpname] at hprefab
    exact ⟨l, name, p, e, hl, hname, hp, he, hprefab, hmakes p hfor⟩
  known := by
    intro request source name hresolve
    obtain ⟨variants, hvariants, hname⟩ := LinkTable.mem_of_resolve hresolve
    rw [variants?_links hs] at hvariants
    obtain ⟨l, hl, rfl⟩ := Option.map_eq_some_iff.mp hvariants
    rw [get?_catalog hs]
    exact (hd.link l (List.mem_of_find?_eq_some hl)).2 name hname
  listed := fun p hp g hk =>
    have hcatalog : s.catalog.prefabs = d.prefabs :=
      congrArg PrefabCatalog.prefabs (Prod.mk.inj hs).1
    ⟨hd.exists_tile hs (hcatalog ▸ hp) hk, hd.exists_shapes hs (hcatalog ▸ hp) hk⟩

/-- **In the scene of a valid document no name is looked up in vain**,
whatever has been done to it. -/
theorem Document.resolves [Numeral α] (hd : d.check = .ok ()) (hρ : RandomSource.InBounds ρ)
    (hs : Relation.ReflTransGen Scene.Change d.buildScene s) : d.Resolves ρ s :=
  (check_eq_ok_iff.mp hd).finds hρ (Scene.stock_of_changes hs)

/-- Two links for one name, and two prefabs of one name, of which only the first is a tile. -/
def Document.doubled : Document Float32 where
  start := "<o A>"
  engine := .default
  rules := []
  links := [⟨"A", ["M", "T"]⟩, ⟨"A", ["G"]⟩]
  prefabs := [⟨"T", .tile ⟨⟨1, 1, 1⟩, ⟨0, 0, 0, 0, 0, 0⟩, .zero⟩⟩, ⟨"M", .marker⟩,
    ⟨"G", .generator ⟨{ ChainParams.default with count := 1 }, ["T"]⟩⟩, ⟨"T", .marker⟩]
  space := none
  scatter := none
  repetitions := 1
  seed := none

/-- There the second variant of the first link is the tile, also after
something has been removed. -/
theorem Document.resolves_doubled :
    doubled.check = .ok () ∧
    (let s := ((doubled.buildScene.spawn ⟨"A", ""⟩ (Xoroshiro.ofSeed 1)).2.1).remove 1
     (s.links.resolve "A" "1" (Xoroshiro.ofSeed 1)).1 = some "T" ∧
      doubled.Resolves Xoroshiro s) := by
  have hcheck : doubled.check = .ok () := by decide +kernel
  refine ⟨hcheck, ?_, ?_⟩
  · decide +kernel
  · refine resolves hcheck Xoroshiro.inBounds ?_
    exact (Relation.ReflTransGen.single (.spawn ..)).tail (.remove 1)

end SpatialGrammar
