/-
SpatialGrammar/Proofs/SceneStock.lean

What objects are made from.

A scene looks up prefabs and links in what it was given at its beginning: whatever is done
to it changes neither (`Scene.Change.stock`).  So the prefab of an object depends on the
stock, the request and the source alone, and the entity that is made for it tells that
prefab (`Scene.spawn_made`).
-/
import SpatialGrammar.Proofs.SceneHandles

namespace SpatialGrammar

variable {α ρ : Type}

namespace Scene

/-! ### The stock -/

/-- The prefabs and the links of a scene. -/
def stock (s : Scene α) : PrefabCatalog α × LinkTable := (s.catalog, s.links)

@[simp] theorem stock_modify (s : Scene α) (id : EntityId) (f : Entity α → Entity α) :
    (s.modify id f).stock = s.stock := rfl

@[simp] theorem stock_insertUnder (s : Scene α) (e : Entity α) (parent : EntityId) :
    (s.insertUnder e parent).2.stock = s.stock := rfl

@[simp] theorem stock_setPose (s : Scene α) (id : EntityId) (pose : Transform α) :
    (s.setPose id pose).stock = s.stock := rfl

@[simp] theorem stock_remove (s : Scene α) (id : EntityId) : (s.remove id).stock = s.stock := by
  rw [remove_rest]
  rfl

variable [Scalar α]

@[simp] theorem stock_ensureHolder (s : Scene α) (firstName : String) :
    (s.ensureHolder firstName).2.stock = s.stock := by
  rcases s.ensureHolder_cases firstName with ⟨_, -, -, heq⟩ | ⟨-, _, -, -, -, heq⟩
  · rw [heq]
  · rw [heq]
    rfl

@[simp] theorem stock_insertTiles (names : Array String) (shapes : Array (TileShape α))
    (generator : EntityId) (ts : List (ChainTile α)) (s : Scene α) :
    (insertTiles names shapes generator ts s).2.stock = s.stock := by
  induction ts generalizing s with
  | nil => rfl
  | cons t ts ih =>
    unfold insertTiles
    split
    · exact ih _
    · exact ih s

@[simp] theorem stock_setParent (s : Scene α) (child parent : EntityId) (keepWorld : Bool) :
    (s.setParent child parent keepWorld).2.stock = s.stock := by
  rw [setParent_rest]
  rfl

@[simp] theorem stock_dispatch [Numeral α] (s : Scene α) (id : EntityId) (call : MethodCall) :
    (s.dispatch id call).2.stock = s.stock := by
  rw [dispatch_rest]
  rfl

variable [RandomSource ρ α]

@[simp] theorem stock_fillGenerator (id : EntityId) (g : GeneratorPrefab) (s : Scene α)
    (source : ρ) : (fillGenerator id g s source).1.stock = s.stock := by
  unfold fillGenerator
  split
  · rfl
  · split
    · rfl
    · exact stock_insertTiles ..

omit [Scalar α] in
/-- Which prefab an object gets depends on the stock alone. -/
theorem prefabFor_congr {s t : Scene α} (h : s.stock = t.stock) (request : SpawnRequest)
    (source : ρ) : s.prefabFor request source = t.prefabFor request source := by
  obtain ⟨hcatalog, hlinks⟩ := Prod.mk.inj h
  unfold prefabFor
  rw [hcatalog, hlinks]

omit [Scalar α] [RandomSource ρ α] in
/-- So do the shapes of what a generator lists. -/
theorem shapes?_congr {s t : Scene α} (h : s.stock = t.stock) (g : GeneratorPrefab) :
    s.shapes? g = t.shapes? g := by
  obtain ⟨hcatalog, -⟩ := Prod.mk.inj h
  unfold shapes?
  rw [hcatalog]

end Scene

/-! ### What objects are made as -/

/-- What can be made from a prefab. -/
inductive PrefabKind.Makes : PrefabKind α → EntityKind α → Prop
  | marker : Makes .marker .marker
  | tile (shape : TileShape α) : Makes (.tile shape) (.tile shape)
  | generator (g : GeneratorPrefab) (tiles : List EntityId) (height : α) :
    Makes (.generator g) (.generator tiles height)

namespace Scene

variable [Scalar α] [RandomSource ρ α]

/-- Spawning enters one entity below the holder, and fills it if it is made from a generator. -/
theorem spawn_cases (request : SpawnRequest) (s : Scene α) (source : ρ) :
    (s.spawn request source).1.1 = (s.ensureHolder request.name).2.entities.size ∧
    ∃ e : Entity α, e.name = request.name ∧ e.children = [] ∧
      e.prefabName = (s.prefabFor request source).1.map Prefab.name ∧
      (∀ p, (s.prefabFor request source).1 = some p → p.kind.Makes e.kind) ∧
      ((s.spawn request source).2.1 =
          ((s.ensureHolder request.name).2.insertUnder e (s.ensureHolder request.name).1).2 ∧
        (∀ p g, (s.prefabFor request source).1 = some p → p.kind ≠ .generator g) ∨
      ∃ p g, (s.prefabFor request source).1 = some p ∧ p.kind = .generator g ∧
        e.kind = .generator [] 0 ∧ (s.spawn request source).2.1 =
          (fillGenerator (s.ensureHolder request.name).2.entities.size g
            ((s.ensureHolder request.name).2.insertUnder e (s.ensureHolder request.name).1).2
            (s.prefabFor request source).2).1) := by
  rw [← prefabFor_congr (stock_ensureHolder s request.name)]
  rcases hh : s.ensureHolder request.name with ⟨h, s₁⟩
  rcases hp : s₁.prefabFor request source with ⟨- | p, source₁⟩
  · refine ⟨?_, .new request.name none .marker, rfl, rfl, rfl, ?_, .inl ⟨?_, ?_⟩⟩
    · simp [spawn, hh, hp, insertUnder, insert]
    · rintro _ ⟨⟩
    · simp [spawn, hh, hp]
    · rintro _ _ ⟨⟩
  · rcases hk : p.kind with - | shape | g
    · refine ⟨?_, .new request.name (some p.name) .marker, rfl, rfl, rfl, ?_, .inl ⟨?_, ?_⟩⟩
      · simp [spawn, hh, hp, hk, insertUnder, insert]
      · rintro _ ⟨⟩
        rw [hk]
        exact .marker
      · simp [spawn, hh, hp, hk]
      · rintro _ _ ⟨⟩
        simp [hk]
    · refine ⟨?_, .new request.name (some p.name) (.tile shape), rfl, rfl, rfl, ?_, .inl ⟨?_, ?_⟩⟩
      · simp [spawn, hh, hp, hk, insertUnder, insert]
      · rintro _ ⟨⟩
        rw [hk]
        exact .tile shape
      · simp [spawn, hh, hp, hk]
      · rintro _ _ ⟨⟩
        simp [hk]
    · refine ⟨?_, .new request.name (some p.name) (.generator [] 0), rfl, rfl, rfl, ?_,
        .inr ⟨p, g, rfl, hk, rfl, ?_⟩⟩
      · simp [spawn, hh, hp, hk, insertUnder, insert]
      · rintro _ ⟨⟩
        rw [hk]
        exact .generator g [] 0
      · simp [spawn, hh, hp, hk, insertUnder, insert]

/-- An object that is made from a generator is entered without tiles and then filled. -/
theorem spawn_filled (s : Scene α) {request : SpawnRequest} {source : ρ} {p : Prefab α}
    {g : GeneratorPrefab} (hp : (s.prefabFor request source).1 = some p)
    (hk : p.kind = .generator g) :
    ∃ (t : Scene α) (e : Entity α), t.stock = s.stock ∧
      t.get? (s.spawn request source).1.1 = some e ∧ e.kind = .generator [] 0 ∧
      (s.spawn request source).2.1 = (fillGenerator (s.spawn request source).1.1 g t
        (s.prefabFor request source).2).1 := by
  obtain ⟨hid, e, -, -, -, -, ⟨-, hother⟩ | ⟨q, g', hq, hk', hkind, heq⟩⟩ :=
    s.spawn_cases request source
  · exact absurd hk (hother p g hp)
  obtain rfl := Option.some.inj (hp.symm.trans hq)
  obtain rfl := PrefabKind.generator.inj (hk.symm.trans hk')
  have hget := get?_insertUnder (e := e) (s.ensureHolder_lt request.name)
    (s.ensureHolder request.name).2.entities.size
  rw [if_pos rfl] at hget
  rw [hid]
  exact ⟨_, _, (stock_insertUnder ..).trans (stock_ensureHolder s request.name), hget, hkind, heq⟩

@[simp] theorem stock_spawn (request : SpawnRequest) (s : Scene α) (source : ρ) :
    (s.spawn request source).2.1.stock = s.stock := by
  obtain ⟨-, e, -, -, -, -, ⟨heq, -⟩ | ⟨p, g, -, -, -, heq⟩⟩ := s.spawn_cases request source <;>
    rw [heq] <;> simp

/-- Filling a generator changes nothing of it but its children and its kind, which stays that of a
generator. -/
theorem get?_fillGenerator {g : EntityId} (p : GeneratorPrefab) {s : Scene α} (source : ρ)
    {e : Entity α} (he : s.get? g = some e) (hc : e.children = [])
    (hk : ∃ tiles height, e.kind = .generator tiles height) :
    ∃ e', (fillGenerator g p s source).1.get? g = some e' ∧ e'.name = e.name ∧
      e'.prefabName = e.prefabName ∧ ∃ tiles height, e'.kind = .generator tiles height := by
  rcases fillGenerator_spec p source he hc with heq | ⟨n, height, -, -, hold, -⟩
  · rw [heq]
    exact ⟨e, he, rfl, rfl, hk⟩
  · have hget := hold g (lt_size he)
    rw [if_pos rfl] at hget
    exact ⟨_, hget, rfl, rfl, _, _, rfl⟩

/-- **The entity that is made for an object has the name of the object and tells the prefab that the
object gets**, and it is of the kind of that prefab. -/
theorem spawn_made (request : SpawnRequest) (s : Scene α) (source : ρ) :
    ∃ e, (s.spawn request source).2.1.get? (s.spawn request source).1.1 = some e ∧
      e.name = request.name ∧ e.prefabName = (s.prefabFor request source).1.map Prefab.name ∧
      ∀ p, (s.prefabFor request source).1 = some p → p.kind.Makes e.kind := by
  obtain ⟨hid, e, hname, hchildren, hprefab, hmakes, hcase⟩ := s.spawn_cases request source
  have hget := get?_insertUnder (e := e) (s.ensureHolder_lt request.name)
    (s.ensureHolder request.name).2.entities.size
  rw [if_pos rfl] at hget
  rw [hid]
  rcases hcase with ⟨heq, -⟩ | ⟨p, g, hp, hk, hkind, heq⟩ <;> rw [heq]
  · exact ⟨_, hget, hname, hprefab, hmakes⟩
  · obtain ⟨e', he', hname', hprefab', tiles, height, hkind'⟩ :=
      get?_fillGenerator g (s.prefabFor request source).2 hget hchildren ⟨[], 0, hkind⟩
    refine ⟨e', he', hname'.trans hname, hprefab'.trans hprefab, ?_⟩
    intro q hq
    obtain rfl := Option.some.inj (hp.symm.trans hq)
    rw [hk, hkind']
    exact .generator g tiles height

variable [Numeral α]

/-- **Whatever is done to a scene, its stock is what it was.** -/
theorem Change.stock {s t : Scene α} (h : s.Change t) : t.stock = s.stock := by
  cases h with
  | spawn request source => exact stock_spawn request s source
  | dispatch id call => exact stock_dispatch s id call
  | remove id => exact stock_remove s id
  | settle id => exact stock_modify ..
  | setParent child parent keep => exact stock_setParent s child parent keep
  | setPose id pose => exact stock_setPose s id pose
  | setWorld id world => exact stock_setPose s id _
  | setOrigin => rfl
  | beginRun => rfl
  | finishRun => rfl

theorem stock_of_changes {s t : Scene α} (h : Relation.ReflTransGen Change s t) :
    t.stock = s.stock := by
  induction h with
  | refl => rfl
  | tail _ hlast ih => exact hlast.stock.trans ih

end Scene

end SpatialGrammar
