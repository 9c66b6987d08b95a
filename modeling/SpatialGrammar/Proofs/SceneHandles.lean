/-
SpatialGrammar/Proofs/SceneHandles.lean

Scenes as they change.

`Scene.Change` is one thing done to a scene; the scenes that can come about are those that
changes lead to from an empty one (`Scene.reachable_iff`).  Every change keeps the tree
(`Scene.Forest.change`), and afterwards a handle that had been given out stands for the same
entity as before or for none (`Scene.Keeps.change`).  From this it is concluded what holds of
every scene that can come about (`Scene.Reachable.orderly`).
-/
import SpatialGrammar.Decimal.Layout
import SpatialGrammar.Proofs.SceneForest
import SpatialGrammar.Random.Replay

namespace SpatialGrammar

variable {α : Type}

/-- What an entity was made as. -/
def Entity.making (e : Entity α) : String × Option String × EntityKind α :=
  (e.name, e.prefabName, e.kind)

namespace Scene

/-- The handles that `s` has given out stand in `t` for the same entities, or for none. -/
structure Keeps (s t : Scene α) : Prop where
  size_le : s.entities.size ≤ t.entities.size
  same : ∀ id e, id < s.entities.size → t.get? id = some e →
    (s.get? id).map Entity.making = some e.making

/-! ### Handles -/

namespace Keeps

variable {s t u : Scene α}

theorem refl (s : Scene α) : s.Keeps s := ⟨Nat.le_refl _, fun id e _ he => by rw [he]; rfl⟩

theorem trans (h : s.Keeps t) (h' : t.Keeps u) : s.Keeps u := by
  refine ⟨h.size_le.trans h'.size_le, fun id e hid he => ?_⟩
  have hmade := h'.same id e (Nat.lt_of_lt_of_le hid h.size_le) he
  obtain ⟨e', he', hmaking⟩ := Option.map_eq_some_iff.mp hmade
  rw [← hmaking]
  exact h.same id e' hid he'

/-- Handles are kept where all entities are left as they were made. -/
theorem of_making (hsize : s.entities.size ≤ t.entities.size)
    (hmaking : ∀ id < s.entities.size,
      (t.get? id).map Entity.making = (s.get? id).map Entity.making) :
    s.Keeps t :=
  ⟨hsize, fun id e hid he => by rw [← hmaking id hid, he]; rfl⟩

theorem modify (s : Scene α) (id : EntityId) {f : Entity α → Entity α}
    (hf : ∀ e, (f e).making = e.making) : s.Keeps (s.modify id f) := by
  refine of_making (size_modify ..).ge fun j _ => ?_
  rw [get?_modify]
  split
  · rw [Option.map_map]
    exact congrArg (Option.map · _) (funext hf)
  · rfl

theorem setPose (s : Scene α) (id : EntityId) (pose : Transform α) : s.Keeps (s.setPose id pose) :=
  modify s id fun _ => rfl

theorem detach (s : Scene α) (child : EntityId) : s.Keeps (s.detach child) := by
  refine of_making (size_detach ..).ge fun j _ => ?_
  rw [get?_detach, Option.map_map]
  rfl

theorem attach (s : Scene α) (child parent : EntityId) : s.Keeps (s.attach child parent) := by
  refine of_making (size_attach ..).ge fun j _ => ?_
  rw [get?_attach, Option.map_map]
  rfl

theorem remove (hs : s.Forest) (top : EntityId) : s.Keeps (s.remove top) := by
  refine (detach s top).trans ⟨by simp, fun id e _ he => ?_⟩
  by_cases hid : s.Beneath id top
  · rw [(hs.get?_remove top id).1 hid] at he
    cases he
  · rw [← (hs.get?_remove top id).2 hid, he]
    rfl

theorem entered {h : EntityId} {n : Nat} (he : Entered s h n t) : s.Keeps t := by
  refine of_making (by rw [he.size]; omega) fun id hid => ?_
  rw [he.old id hid, Option.map_map]
  rfl

variable [Scalar α]

theorem ensureHolder (s : Scene α) (name : String) : s.Keeps (s.ensureHolder name).2 := by
  rcases s.ensureHolder_cases name with ⟨_, -, -, heq⟩ | ⟨-, e, -, -, -, heq⟩ <;> rw [heq]
  · exact refl s
  · refine of_making (by simp) fun id hid => ?_
    have hget : (s.insert e).2.get? id = s.get? id :=
      (get?_insert s e id).trans (if_neg (Nat.ne_of_lt hid))
    exact congrArg (Option.map Entity.making) hget

theorem spawn {ρ : Type} [RandomSource ρ α] (s : Scene α) (request : SpawnRequest) (source : ρ) :
    s.Keeps (s.spawn request source).2.1 := by
  obtain ⟨-, n, he⟩ := s.spawn_spec request source
  exact (ensureHolder s request.name).trans (entered he)

theorem setParent (s : Scene α) (child parent : EntityId) (keepWorld : Bool) :
    s.Keeps (s.setParent child parent keepWorld).2 := by
  have hattached := (detach s child).trans (attach (s.detach child) child parent)
  rcases s.setParent_cases child parent keepWorld with heq | ⟨-, -, -, heq | ⟨pose, heq⟩⟩ <;>
    rw [heq]
  · exact refl s
  · exact hattached
  · exact hattached.trans (setPose _ child pose)

theorem dispatch [Numeral α] (s : Scene α) (id : EntityId) (call : MethodCall) :
    s.Keeps (s.dispatch id call).2 := by
  rcases s.dispatch_cases id call with heq | ⟨pose, heq⟩ | ⟨parent, keep, -, heq⟩ <;> rw [heq]
  · exact refl s
  · exact setPose s id pose
  · exact setParent s id parent keep

end Keeps

variable [Scalar α] [Numeral α]

/-! ### Changes -/

/-- One thing that is done to a scene. -/
inductive Change : Scene α → Scene α → Prop where
  | spawn {ρ : Type} [RandomSource ρ α] {s : Scene α} (request : SpawnRequest) (source : ρ) :
    Change s (s.spawn request source).2.1
  | dispatch {s : Scene α} (id : EntityId) (call : MethodCall) : Change s (s.dispatch id call).2
  | remove {s : Scene α} (id : EntityId) : Change s (s.remove id)
  | settle {s : Scene α} (id : EntityId) : Change s (s.settle id)
  | setParent {s : Scene α} (child parent : EntityId) (keepWorld : Bool) :
    Change s (s.setParent child parent keepWorld).2
  | setPose {s : Scene α} (id : EntityId) (pose : Transform α) : Change s (s.setPose id pose)
  | setWorld {s : Scene α} (id : EntityId) (world : Transform α) : Change s (s.setWorld id world)
  | setOrigin {s : Scene α} (spawnOrigin : Vec3 α) : Change s { s with spawnOrigin }
  | beginRun {s : Scene α} : Change s s.beginRun
  | finishRun {s : Scene α} : Change s s.finishRun.2

variable {s t : Scene α}

/-- The scenes that can come about are those to which changes lead from an empty one. -/
theorem reachable_iff : t.Reachable ↔
    ∃ catalog links origin, Relation.ReflTransGen Change (.empty catalog links origin) t := by
  constructor
  · intro h
    have step {s t : Scene α} (ht : s.Change t) :
        (∃ catalog links origin, Relation.ReflTransGen Change (.empty catalog links origin) s) →
        ∃ catalog links origin, Relation.ReflTransGen Change (.empty catalog links origin) t :=
      fun ⟨catalog, links, origin, hs⟩ => ⟨catalog, links, origin, hs.tail ht⟩
    induction h with
    | empty catalog links origin => exact ⟨catalog, links, origin, .refl⟩
    | spawn request source _ ih => exact step (.spawn request source) ih
    | dispatch id call _ ih => exact step (.dispatch id call) ih
    | remove id _ ih => exact step (.remove id) ih
    | settle id _ ih => exact step (.settle id) ih
    | setParent child parent keep _ ih => exact step (.setParent child parent keep) ih
    | setPose id pose _ ih => exact step (.setPose id pose) ih
    | setWorld id world _ ih => exact step (.setWorld id world) ih
    | setOrigin origin _ ih => exact step (.setOrigin origin) ih
    | beginRun _ ih => exact step .beginRun ih
    | finishRun _ ih => exact step .finishRun ih
  · rintro ⟨catalog, links, origin, h⟩
    induction h with
    | refl => exact .empty catalog links origin
    | tail _ hlast ih =>
      cases hlast with
      | spawn request source => exact ih.spawn request source
      | dispatch id call => exact ih.dispatch id call
      | remove id => exact ih.remove id
      | settle id => exact ih.settle id
      | setParent child parent keep => exact ih.setParent child parent keep
      | setPose id pose => exact ih.setPose id pose
      | setWorld id world => exact ih.setWorld id world
      | setOrigin origin => exact ih.setOrigin origin
      | beginRun => exact ih.beginRun
      | finishRun => exact ih.finishRun

/-- Every change keeps the tree. -/
theorem Forest.change (hs : s.Forest) (h : s.Change t) : t.Forest := by
  cases h with
  | spawn request source => exact hs.spawn request source
  | dispatch id call => exact hs.dispatch id call
  | remove id => exact hs.remove id
  | settle id => exact hs.settle id
  | setParent child parent keep => exact hs.setParent child parent keep
  | setPose id pose => exact hs.setPose id pose
  | setWorld id world => exact hs.setPose id _
  | setOrigin => exact hs.congr fun _ => rfl
  | beginRun => exact hs.congr fun _ => rfl
  | finishRun => exact hs.congr fun _ => rfl

/-- Every change keeps the handles. -/
theorem Keeps.change (hs : s.Forest) (h : s.Change t) : s.Keeps t := by
  cases h with
  | spawn request source => exact spawn s request source
  | dispatch id call => exact dispatch s id call
  | remove id => exact remove hs id
  | settle id => exact modify s id fun _ => rfl
  | setParent child parent keep => exact setParent s child parent keep
  | setPose id pose => exact setPose s id pose
  | setWorld id world => exact setPose s id _
  | setOrigin => exact of_making (Nat.le_refl _) fun _ _ => rfl
  | beginRun => exact of_making (Nat.le_refl _) fun _ _ => rfl
  | finishRun => exact of_making (Nat.le_refl _) fun _ _ => rfl

/-- Any number of changes keep the tree and the handles. -/
theorem Forest.changes (hs : s.Forest) (h : Relation.ReflTransGen Change s t) :
    t.Forest ∧ s.Keeps t := by
  induction h with
  | refl => exact ⟨hs, .refl s⟩
  | tail _ hlast ih => exact ⟨ih.1.change hlast, ih.2.trans (.change ih.1 hlast)⟩

omit [Scalar α] [Numeral α] in
theorem Forest.empty (catalog : PrefabCatalog α) (links : LinkTable) (origin : Vec3 α) :
    (empty catalog links origin).Forest := by
  have hget (id : EntityId) : (Scene.empty catalog links origin).get? id = none := by
    simp [Scene.empty, get?]
  refine ⟨?_, ?_, ?_, ⟨fun id => ⟨id, ?_⟩⟩⟩
  · intro id e p he
    rw [hget] at he
    cases he
  · intro id e c he
    rw [hget] at he
    cases he
  · intro id e he
    rw [hget] at he
    cases he
  · rintro p ⟨e, -, he, -⟩
    rw [hget] at he
    cases he

/-- **The scenes that can come about are forests.** -/
theorem Reachable.forest (h : s.Reachable) : s.Forest := by
  obtain ⟨catalog, links, origin, h⟩ := reachable_iff.mp h
  exact ((Forest.empty catalog links origin).changes h).1

/-! ### What holds of all scenes -/

/-- What is so of a scene in order. -/
structure Orderly (s : Scene α) : Prop where
  /-- What an entity hangs below is live. -/
  parent_live : ∀ id e p, s.get? id = some e → e.parent = some p → ∃ ep, s.get? p = some ep
  /-- An entity lists another one once just if that one hangs below it. -/
  count_children : ∀ p e c, s.get? p = some e →
    (e.children.count c = 1 ↔ ∃ ec, s.get? c = some ec ∧ ec.parent = some p)
  /-- What an entity lists is live and listed once. -/
  listed : ∀ p e, s.get? p = some e → ∀ c ∈ e.children,
    e.children.count c = 1 ∧ ∃ ec, s.get? c = some ec
  /-- No way up leads back to where it began. -/
  acyclic : ∀ id, ¬ Relation.TransGen s.Hangs id id
  /-- The walk to the ancestors finds all of them. -/
  isAncestor_iff : ∀ top id, s.isAncestor top id = true ↔ s.Beneath id top
  /-- The walk to the world takes in all poses above an entity. -/
  world_eq : ∀ id, s.world? id = match s.get? id with
    | none => none
    | some e =>
      match e.parent with
      | none => some e.pose
      | some p => some (((s.world? p).getD .identity).compose e.pose)
  /-- Reparenting is refused where one of the two is missing and where the parent is the child or
  below it, and nowhere else; where it is refused, nothing is done. -/
  setParent_refused : ∀ child parent keepWorld,
    ((s.setParent child parent keepWorld).1 = false ↔
      s.get? child = none ∨ s.get? parent = none ∨ s.Beneath parent child) ∧
    ((s.setParent child parent keepWorld).1 = false → (s.setParent child parent keepWorld).2 = s)
  /-- Whatever is done, a handle that was given out never stands for another entity,
  and is not given out again. -/
  handles : ∀ t, Relation.ReflTransGen Change s t → s.Keeps t ∧
    ∀ {ρ : Type} [RandomSource ρ α] (request : SpawnRequest) (source : ρ),
      s.entities.size ≤ (t.spawn request source).1.1

/-- **A scene that can come about is always in order.** -/
theorem Reachable.orderly (h : s.Reachable) : s.Orderly := by
  have hs := h.forest
  have hmem {p c : EntityId} {e : Entity α} (he : s.get? p = some e) :
      c ∈ e.children ↔ ∃ ec, s.get? c = some ec ∧ ec.parent = some p := by
    rw [hs.mem_children_iff p e c he]
    exact ⟨fun ⟨ec, _, hec, hp, _⟩ => ⟨ec, hec, hp⟩, fun ⟨ec, hec, hp⟩ => ⟨ec, e, hec, hp, he⟩⟩
  have hcount {p c : EntityId} {e : Entity α} (he : s.get? p = some e) :
      e.children.count c = 1 ↔ c ∈ e.children := by
    refine ⟨fun hc => List.count_pos_iff.mp (hc ▸ Nat.one_pos), fun hc => ?_⟩
    exact List.count_eq_one_of_mem (hs.nodup p e he) hc
  refine ⟨hs.parent_live, ?_, ?_, hs.acyclic, hs.isAncestor_iff, hs.world?_eq,
    hs.setParent_refused, ?_⟩
  · exact fun p e c he => (hcount he).trans (hmem he)
  · intro p e he c hc
    obtain ⟨ec, hec, -⟩ := (hmem he).mp hc
    exact ⟨(hcount he).mpr hc, ec, hec⟩
  · intro t ht
    have hkeeps := (hs.changes ht).2
    exact ⟨hkeeps, fun request source => hkeeps.size_le.trans (t.spawn_lt_size request source).1⟩

/-- A scene with three objects, of which one hangs below another one and one has been removed. -/
def rearranged : Scene Float32 :=
  let begun := beginRun (.empty (.ofList []) (.ofList []) ⟨0, 0, 0⟩)
  let first := (begun.spawn ⟨"A", ""⟩ (⟨#[], 0⟩ : Replay)).2.1
  let second := (first.spawn ⟨"B", ""⟩ (⟨#[], 0⟩ : Replay)).2.1
  let third := (second.spawn ⟨"C", ""⟩ (⟨#[], 0⟩ : Replay)).2.1
  ((third.setParent 2 1 false).2.remove 3).finishRun.2

/-- There the first object cannot be hung below the one that hangs below it, and the handle of the
one that was removed is not used again. -/
theorem orderly_rearranged : rearranged.Reachable ∧
    (rearranged.get? 1).map Entity.children = some [2] ∧ rearranged.get? 3 = none ∧
    (rearranged.setParent 1 2 true).1 = false ∧ (rearranged.setParent 1 2 true).2 = rearranged ∧
    (rearranged.spawn ⟨"D", ""⟩ (⟨#[], 0⟩ : Replay)).1.1 = 5 ∧ rearranged.Orderly := by
  have hreachable : rearranged.Reachable :=
    ((((((Reachable.empty ..).beginRun.spawn ..).spawn ..).spawn ..).setParent ..).remove
      ..).finishRun
  have horderly := hreachable.orderly
  have hrefused : (rearranged.setParent 1 2 true).1 = false := by decide +kernel
  refine ⟨hreachable, ?_, ?_, hrefused, ?_, ?_, horderly⟩
  · decide +kernel
  · decide +kernel
  · exact (horderly.setParent_refused 1 2 true).2 hrefused
  · decide +kernel

end Scene

end SpatialGrammar
