/-
SpatialGrammar/Proofs/GeneratorFit.lean

Generators whose parameters do not fit.

The check of a document sees to it that a generator lists tiles, but not that it lists any,
nor that the places named first and last are places of the list.  Growing a chain refuses
such parameters (`Chain.Refused`), and then the generator stays empty.  In a scene of a
valid document this is the only way in which a generator that wants tiles gets none
(`Document.grows_iff`).
-/
import SpatialGrammar.Proofs.ChainLinkage
import SpatialGrammar.Proofs.CrossReferences

namespace SpatialGrammar

variable {α ρ : Type} [Scalar α]

/-! ### The tiles of a chain -/

namespace Chain

variable [RandomSource ρ α] {prefabs : Array (TileShape α)} {params : ChainParams}

/-- Growing puts on none but prefabs of the list. -/
theorem prefab_lt_of_grow {wanted : Nat} {g : Growing α} (hg : ∀ i ∈ g.prefabs, i < prefabs.size)
    (s : ρ) : ∀ i ∈ (grow prefabs params wanted g s).1.prefabs, i < prefabs.size := by
  refine grow_keeps (P := fun g => ∀ i ∈ g.prefabs, i < prefabs.size) ?_ wanted hg s
  intro g g' c _ hbefore _ hput i hi
  obtain ⟨_, q, -, hq, -, -⟩ := Growing.put?_spec hput
  rw [Growing.prefabs_put hput] at hi
  rcases List.mem_append.mp hi with hi | hi
  · exact hbefore i hi
  · rw [List.mem_singleton.mp hi]
    exact (Array.getElem?_eq_some_iff.mp hq).1

/-- The first tile is of a prefab of the list, unless the parameters are refused. -/
theorem firstTile_prefab_lt (hρ : RandomSource.InBounds ρ) {count : Nat}
    (hpassed : ¬ Refused count params) (hcount : params.count ≠ 0) (s : ρ) :
    (firstTile count params s : ChainTile α × ρ).1.prefab < count := by
  rw [firstTile_prefab]
  rcases hfirst : params.first with - | i
  · exact hρ count s (Nat.pos_of_ne_zero fun h0 => hpassed ⟨hcount, .inl h0⟩)
  · exact Nat.lt_of_not_le fun hle => hpassed ⟨hcount, .inr (.inl ⟨i, hfirst, hle⟩)⟩

/-- All tiles of a chain are of prefabs of the list. -/
theorem prefab_lt_of_generate (hρ : RandomSource.InBounds ρ) {s : ρ} {ch : Chain α}
    (h : (generate prefabs params s).1 = .ok ch) : ∀ t ∈ ch.tiles, t.prefab < prefabs.size := by
  rcases generate_cases prefabs params s with ⟨-, e, he⟩ | ⟨hpassed, ⟨-, hnone⟩ |
    ⟨hcount, first, s₁, g, s₂, hfirst, hgrow, hgenerate⟩⟩
  · rw [he] at h
    cases h
  · rw [hnone] at h
    obtain rfl := Except.ok.inj h
    exact fun _ ht => nomatch ht
  · rw [hgenerate] at h
    obtain rfl := Except.ok.inj h
    have hlt := firstTile_prefab_lt (α := α) hρ hpassed hcount s
    rw [hfirst] at hlt
    have hstart : ∀ i ∈ (⟨first, [], []⟩ : Growing α).prefabs, i < prefabs.size := by
      simpa [Growing.prefabs, Growing.tiles] using hlt
    have hgrown : ∀ i ∈ (grow prefabs params (params.count - 1) ⟨first, [], []⟩ s₁).1.prefabs,
        i < prefabs.size := prefab_lt_of_grow hstart s₁
    rw [hgrow] at hgrown
    exact fun t ht => hgrown t.prefab (List.mem_map_of_mem ht)

/-- A chain that is wanted has a tile. -/
theorem tiles_ne_nil_of_generate {s : ρ} {ch : Chain α}
    (h : (generate prefabs params s).1 = .ok ch) (hcount : params.count ≠ 0) : ch.tiles ≠ [] := by
  rcases generate_cases prefabs params s with ⟨-, e, he⟩ | ⟨-, ⟨hnone, -⟩ |
    ⟨-, first, s₁, g, s₂, -, -, hgenerate⟩⟩
  · rw [he] at h
    cases h
  · exact absurd hnone hcount
  · rw [hgenerate] at h
    obtain rfl := Except.ok.inj h
    simp [Growing.tiles]

end Chain

/-! ### The tiles of a generator -/

namespace Scene

/-- Every tile of a chain is entered if all of them are of prefabs of the list. -/
theorem length_insertTiles {names : Array String} {shapes : Array (TileShape α)}
    (generator : EntityId) {ts : List (ChainTile α)}
    (h : ∀ t ∈ ts, t.prefab < names.size ∧ t.prefab < shapes.size) (s : Scene α) :
    (insertTiles names shapes generator ts s).1.length = ts.length := by
  induction ts generalizing s with
  | nil => rfl
  | cons t ts ih =>
    obtain ⟨⟨hname, hshape⟩, hts⟩ := List.forall_mem_cons.mp h
    unfold insertTiles
    rw [Array.getElem?_eq_getElem hname, Array.getElem?_eq_getElem hshape]
    exact congrArg Nat.succ (ih hts _)

variable [RandomSource ρ α] {g : GeneratorPrefab} {s : Scene α} {shapes : List (TileShape α)}

/-- A generator that lists tiles gets as many of them as its chain has,
and none if it is refused. -/
theorem fillGenerator_fills (hρ : RandomSource.InBounds ρ) {id : EntityId} {e : Entity α}
    (he : s.get? id = some e) (hkind : e.kind = .generator [] 0)
    (hshapes : s.shapes? g = some shapes) (hlength : shapes.length = g.tiles.length) (source : ρ) :
    ∃ e' tiles height, (fillGenerator id g s source).1.get? id = some e' ∧
      e'.kind = .generator tiles height ∧
      (∀ error, (Chain.generate shapes.toArray g.params source).1 = .error error → tiles = []) ∧
      ∀ ch, (Chain.generate shapes.toArray g.params source).1 = .ok ch →
        tiles.length = ch.tiles.length := by
  unfold fillGenerator
  rw [hshapes]
  dsimp only
  split
  · next error source' hgenerate =>
    rw [hgenerate]
    exact ⟨e, [], 0, he, hkind, fun _ _ => rfl, by rintro _ ⟨⟩⟩
  · next ch source' hgenerate =>
    have hplaced : ∀ t ∈ ch.tiles,
        t.prefab < g.tiles.toArray.size ∧ t.prefab < shapes.toArray.size := by
      intro t ht
      have hlt := Chain.prefab_lt_of_generate hρ (congrArg Prod.fst hgenerate) t ht
      exact ⟨by simpa [hlength] using hlt, hlt⟩
    have hentered := length_insertTiles id hplaced s
    obtain ⟨n, -, -, -, hold, -⟩ :=
      insertTiles_spec g.tiles.toArray shapes.toArray ch.tiles (lt_size he)
    rw [hgenerate]
    have hget := get?_modify (insertTiles g.tiles.toArray shapes.toArray id ch.tiles s).2 id
      (fun e => { e with
        kind := .generator (insertTiles g.tiles.toArray shapes.toArray id ch.tiles s).1
          ch.height }) id
    rw [if_pos rfl, hold id (lt_size he), he] at hget
    refine ⟨_, _, _, hget, rfl, by rintro _ ⟨⟩, ?_⟩
    rintro _ ⟨⟩
    exact hentered

/-- An object that gets a generator is entered as one, with the tiles of the chain. -/
theorem spawn_generator (hρ : RandomSource.InBounds ρ) {request : SpawnRequest} {source : ρ}
    {p : Prefab α} (hp : (s.prefabFor request source).1 = some p) (hk : p.kind = .generator g)
    (hshapes : s.shapes? g = some shapes) (hlength : shapes.length = g.tiles.length) :
    ∃ e tiles height, (s.spawn request source).2.1.get? (s.spawn request source).1.1 = some e ∧
      e.kind = .generator tiles height ∧
      (1 ≤ g.params.count → (tiles ≠ [] ↔ ¬ Chain.Refused g.tiles.length g.params)) := by
  have hsize : shapes.toArray.size = g.tiles.length := by simpa using hlength
  obtain ⟨t, e, hstock, hget, hkind, heq⟩ := s.spawn_filled hp hk
  obtain ⟨e', tiles, height, he', hkind', herror, hok⟩ :=
    fillGenerator_fills hρ hget hkind ((shapes?_congr hstock g).trans hshapes) hlength
      (s.prefabFor request source).2
  rw [heq]
  refine ⟨e', tiles, height, he', hkind', fun hcount => ?_⟩
  rw [← hsize, ← Chain.generate_error_iff (s := (s.prefabFor request source).2)]
  rcases hgenerate : (Chain.generate shapes.toArray g.params (s.prefabFor request source).2).1 with
    error | ch
  · exact iff_of_false (fun h => h (herror error hgenerate)) (fun h => h ⟨error, rfl⟩)
  · refine iff_of_true ?_ (by rintro ⟨_, ⟨⟩⟩)
    have hwanted := Chain.tiles_ne_nil_of_generate hgenerate (Nat.ne_of_gt hcount)
    rw [← List.length_pos_iff, hok ch hgenerate]
    exact List.length_pos_iff.mpr hwanted

end Scene

/-! ### Generators of valid documents -/

variable [Numeral α] [RandomSource ρ α]

/-- **A generator of a valid document grows no chain just if its parameters are refused**,
whatever is drawn; an object that gets it and for which tiles are wanted then has none,
and otherwise at least one. -/
theorem Document.grows_iff {d : Document α} (hd : d.check = .ok ()) {s : Scene α}
    (hs : Relation.ReflTransGen Scene.Change d.buildScene s) {name : String} {p : Prefab α}
    {g : GeneratorPrefab} (hp : d.prefab? name = some p) (hk : p.kind = .generator g) :
    ∃ shapes, s.shapes? g = some shapes ∧
      (∀ source : ρ, (∃ e, (Chain.generate shapes.toArray g.params source).1 = .error e) ↔
        Chain.Refused g.tiles.length g.params) ∧
      (RandomSource.InBounds ρ → ∀ (request : SpawnRequest) (source : ρ),
        (s.links.resolve request.name request.args source).1 = some name →
        ∃ e tiles height,
          (s.spawn request source).2.1.get? (s.spawn request source).1.1 = some e ∧
          e.kind = .generator tiles height ∧
          (1 ≤ g.params.count → (tiles ≠ [] ↔ ¬ Chain.Refused g.tiles.length g.params))) := by
  have hstock := Scene.stock_of_changes hs
  obtain ⟨shapes, hshapes, hlength⟩ := (check_eq_ok_iff.mp hd).exists_shapes hstock
    (List.mem_of_find?_eq_some hp) hk
  refine ⟨shapes, hshapes, fun source => ?_, fun hρ request source hresolve => ?_⟩
  · rw [Chain.generate_error_iff]
    simp [hlength]
  · refine Scene.spawn_generator hρ (p := p) ?_ hk hshapes hlength
    show ((s.links.resolve request.name request.args source).1).bind s.catalog.get? = some p
    rw [hresolve]
    exact (get?_catalog hstock name).trans hp

/-- A generator of one tile, which is said to be the first one, and a place for the last one. -/
def Document.lastAt (last : Nat) : Document Float32 where
  start := "<o A>"
  engine := .default
  rules := []
  links := [⟨"A", ["G"]⟩]
  prefabs := [⟨"T", .tile ⟨⟨1, 1, 1⟩, ⟨0, 0, 0, 0, 0, 0⟩, .zero⟩⟩,
    ⟨"G", .generator ⟨⟨1, .xz, some 0, some last, false, false⟩, ["T"]⟩⟩]
  space := none
  scatter := none
  repetitions := 1
  seed := none

/-- With a place of the list for the last one the generator gets its tile. -/
theorem Document.grows_lastAt : (lastAt 0).check = .ok () ∧ ∃ e tiles height,
    ((lastAt 0).buildScene.spawn ⟨"A", ""⟩ (Xoroshiro.ofSeed 1)).2.1.get? 1 = some e ∧
    e.kind = .generator tiles height ∧ tiles ≠ [] := by
  have hcheck : (lastAt 0).check = .ok () := by decide +kernel
  have hfound : (lastAt 0).prefab? "G" = some _ := rfl
  obtain ⟨-, -, -, hspawn⟩ := grows_iff (ρ := Xoroshiro) hcheck .refl hfound rfl
  obtain ⟨e, tiles, height, he, hkind, htiles⟩ :=
    hspawn Xoroshiro.inBounds ⟨"A", ""⟩ (Xoroshiro.ofSeed 1) (by decide +kernel)
  refine ⟨hcheck, e, tiles, height, he, hkind, (htiles Nat.one_pos).mpr ?_⟩
  rw [← Chain.check_eq_ok_iff]
  rfl

/-- With a place outside of the list the document is valid all the same, and growing is refused
whatever is drawn, although the one tile that is wanted is there. -/
theorem Document.refused_lastAt : (lastAt 1).check = .ok () ∧
    ((lastAt 1).buildScene.links.resolve "A" "" (Xoroshiro.ofSeed 1)).1 = some "G" ∧
    ∃ g shapes, (lastAt 1).prefab? "G" = some ⟨"G", .generator g⟩ ∧ g.params.count = 1 ∧
      (lastAt 1).buildScene.shapes? g = some shapes ∧
      (∀ source : Xoroshiro, (Chain.generate shapes.toArray g.params source).1 =
        .error (.indexOutOfRange "last" 1 1)) ∧
      ((((lastAt 1).buildScene.spawn ⟨"A", ""⟩ (Xoroshiro.ofSeed 1)).2.1.get? 1).map Entity.kind =
        some (.generator [] 0)) := by
  refine ⟨by decide +kernel, by decide +kernel, _, _, rfl, rfl, rfl, fun _ => rfl, ?_⟩
  decide +kernel

end SpatialGrammar
