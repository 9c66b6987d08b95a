/-
SpatialGrammar/Proofs/SceneReach.lean

The scenes that can come about.

`Scene.Reachable` is the closure of the empty scenes under all that can be done to a
scene.  In such a scene no place refers to one that has not been given out yet
(`Scene.Reachable.grounded`), so whatever is entered next is referred to by nothing.
What a run does to a scene is among these things, so a run keeps both.
-/
import SpatialGrammar.Proofs.ScenePlaces

namespace SpatialGrammar

variable {α : Type}

/-- Whatever an entity refers to has a handle below `n`. -/
structure Entity.Below (n : Nat) (e : Entity α) : Prop where
  parent : ∀ p, e.parent = some p → p < n
  children : ∀ c ∈ e.children, c < n

theorem Entity.Below.mono {n m : Nat} {e : Entity α} (h : e.Below n) (hle : n ≤ m) : e.Below m :=
  ⟨fun p hp => Nat.lt_of_lt_of_le (h.parent p hp) hle,
    fun c hc => Nat.lt_of_lt_of_le (h.children c hc) hle⟩

namespace Scene

/-- Nothing in the scene refers to a place that has not been given out. -/
structure Grounded (s : Scene α) : Prop where
  entity : ∀ id e, s.get? id = some e → e.Below s.entities.size
  holder : ∀ h, s.holder = some h → h < s.entities.size

namespace Grounded

variable {s : Scene α}

theorem modify (h : s.Grounded) (id : EntityId) {f : Entity α → Entity α}
    (hf : ∀ e : Entity α, e.Below s.entities.size → (f e).Below s.entities.size) :
    (s.modify id f).Grounded := by
  refine ⟨?_, by simpa using h.holder⟩
  intro j e he
  rw [size_modify]
  rw [get?_modify] at he
  split at he
  · obtain ⟨e', he', rfl⟩ := Option.map_eq_some_iff.mp he
    exact hf e' (h.entity j e' he')
  · exact h.entity j e he

theorem erase (h : s.Grounded) (id : EntityId) : (s.erase id).Grounded := by
  refine ⟨?_, by simpa using h.holder⟩
  intro j e he
  rw [size_erase]
  rw [get?_erase] at he
  split at he
  · cases he
  · exact h.entity j e he

theorem attach (h : s.Grounded) {child parent : EntityId} (hc : child < s.entities.size)
    (hp : parent < s.entities.size) : (s.attach child parent).Grounded := by
  have h' : (s.modify parent fun p => { p with children := p.children ++ [child] }).Grounded := by
    refine h.modify parent fun e he => ⟨he.parent, ?_⟩
    intro c hm
    rcases List.mem_append.mp hm with hm | hm
    · exact he.children c hm
    · rw [List.mem_singleton.mp hm]
      exact hc
  refine h'.modify child fun e he => ⟨?_, he.children⟩
  rintro _ ⟨⟩
  rw [size_modify]
  exact hp

theorem detach (h : s.Grounded) (child : EntityId) : (s.detach child).Grounded := by
  unfold Scene.detach
  split
  · exact h
  · have h' : (s.modify child fun c => { c with parent := none }).Grounded :=
      h.modify child fun e he => ⟨by rintro _ ⟨⟩, he.children⟩
    refine h'.modify _ fun e he => ⟨he.parent, ?_⟩
    exact fun c hc => he.children c (List.mem_filter.mp hc).1

theorem clear (depth : Nat) (id : EntityId) (h : s.Grounded) : (clear depth id s).Grounded := by
  induction depth generalizing id s with
  | zero => exact h
  | succ depth ih =>
    unfold Scene.clear
    split
    · exact h
    · exact List.foldlRecOn _ _ (h.erase id) fun _ ht c _ => ih c ht

theorem remove (h : s.Grounded) (id : EntityId) : (s.remove id).Grounded :=
  (h.detach id).clear _ _

theorem insert (h : s.Grounded) {e : Entity α} (hp : e.parent = none) (hc : e.children = []) :
    (s.insert e).2.Grounded := by
  refine ⟨?_, ?_⟩
  · intro j e' he'
    rw [size_insert]
    rw [get?_insert] at he'
    split at he'
    · obtain rfl := Option.some.inj he'
      exact ⟨by simp [hp], by simp [hc]⟩
    · exact (h.entity j e' he').mono (Nat.le_succ _)
  · intro j hj
    rw [size_insert]
    exact Nat.lt_succ_of_lt (h.holder j hj)

theorem congr {t : Scene α} (h : s.Grounded) (hentities : t.entities = s.entities)
    (hholder : ∀ j, t.holder = some j → j < s.entities.size) : t.Grounded := by
  have hget (id : EntityId) : t.get? id = s.get? id := by
    simp only [get?, hentities]
  refine ⟨?_, by rwa [hentities]⟩
  intro id e he
  rw [hget] at he
  rw [hentities]
  exact h.entity id e he

theorem entered {h : EntityId} {n : Nat} {s' : Scene α} (hs : s.Grounded)
    (hlt : h < s.entities.size) (he : Entered s h n s') : s'.Grounded := by
  have hlt_size : s.entities.size < s'.entities.size := by
    rw [he.size, Nat.add_assoc]
    exact Nat.lt_add_of_pos_right (Nat.add_pos_left Nat.one_pos n)
  refine ⟨?_, ?_⟩
  · intro id e hid
    have hid' := lt_size hid
    rcases he.cases hid with ⟨-, e₀, he₀, rfl⟩ | ⟨rfl, hparent, hchildren, -⟩ |
      ⟨hgt, -, hparent, hchildren⟩
    · have hb := (hs.entity _ _ he₀).mono (Nat.le_of_lt hlt_size)
      refine ⟨hb.parent, ?_⟩
      intro c hc
      rcases List.mem_append.mp hc with hc | hc
      · exact hb.children c hc
      · split at hc
        · rw [List.mem_singleton.mp hc]
          exact hlt_size
        · cases hc
    · refine ⟨?_, ?_⟩
      · intro p hp
        rw [hparent] at hp
        obtain rfl := Option.some.inj hp
        exact Nat.lt_trans hlt hid'
      · intro c hc
        rw [hchildren] at hc
        rw [he.size]
        exact (List.mem_range'_1.mp hc).2
    · refine ⟨?_, by simp [hchildren]⟩
      intro p hp
      rw [hparent] at hp
      obtain rfl := Option.some.inj hp
      exact Nat.lt_trans hgt hid'
  · intro j hj
    rw [he.holder] at hj
    exact Nat.lt_trans (hs.holder j hj) hlt_size

variable [Scalar α]

theorem ensureHolder (h : s.Grounded) (name : String) : (s.ensureHolder name).2.Grounded := by
  rcases s.ensureHolder_cases name with ⟨_, -, -, heq⟩ | ⟨-, e, -, hp, hc, heq⟩ <;> rw [heq]
  · exact h
  · refine (h.insert hp hc).congr rfl ?_
    rintro _ ⟨⟩
    rw [size_insert]
    exact Nat.lt_succ_self _

theorem spawn {ρ : Type} [RandomSource ρ α] (h : s.Grounded) (request : SpawnRequest)
    (source : ρ) : (s.spawn request source).2.1.Grounded := by
  obtain ⟨-, n, he⟩ := s.spawn_spec request source
  exact (h.ensureHolder _).entered (s.ensureHolder_lt _) he

omit [Scalar α] in
theorem setPose (h : s.Grounded) (id : EntityId) (pose : Transform α) :
    (s.setPose id pose).Grounded :=
  h.modify id fun _ he => ⟨he.parent, he.children⟩

theorem setParent (h : s.Grounded) (child parent : EntityId) (keepWorld : Bool) :
    (s.setParent child parent keepWorld).2.Grounded := by
  rcases s.setParent_cases child parent keepWorld with heq | ⟨⟨c, hc⟩, ⟨p, hp⟩, -, heq⟩
  · rw [heq]
    exact h
  · have ha : ((s.detach child).attach child parent).Grounded := by
      refine (h.detach child).attach ?_ ?_ <;> rw [size_detach]
      · exact lt_size hc
      · exact lt_size hp
    rcases heq with heq | ⟨pose, heq⟩ <;> rw [heq]
    · exact ha
    · exact ha.setPose child pose

theorem dispatch [Numeral α] (h : s.Grounded) (id : EntityId) (call : MethodCall) :
    (s.dispatch id call).2.Grounded := by
  rcases s.dispatch_cases id call with heq | ⟨pose, heq⟩ | ⟨parent, keep, -, heq⟩ <;> rw [heq]
  · exact h
  · exact h.setPose id pose
  · exact h.setParent id parent keep

end Grounded

variable [Scalar α] [Numeral α]

/-! ### Scenes that can come about -/

/-- A scene that comes about from an empty one by what can be done to a scene. -/
inductive Reachable : Scene α → Prop where
  | empty (catalog : PrefabCatalog α) (links : LinkTable) (spawnOrigin : Vec3 α) :
    Reachable (.empty catalog links spawnOrigin)
  | spawn {ρ : Type} [RandomSource ρ α] {s : Scene α} (request : SpawnRequest) (source : ρ) :
    Reachable s → Reachable (s.spawn request source).2.1
  | dispatch {s : Scene α} (id : EntityId) (call : MethodCall) :
    Reachable s → Reachable (s.dispatch id call).2
  | remove {s : Scene α} (id : EntityId) : Reachable s → Reachable (s.remove id)
  | settle {s : Scene α} (id : EntityId) : Reachable s → Reachable (s.settle id)
  | setParent {s : Scene α} (child parent : EntityId) (keepWorld : Bool) :
    Reachable s → Reachable (s.setParent child parent keepWorld).2
  | setPose {s : Scene α} (id : EntityId) (pose : Transform α) :
    Reachable s → Reachable (s.setPose id pose)
  | setWorld {s : Scene α} (id : EntityId) (world : Transform α) :
    Reachable s → Reachable (s.setWorld id world)
  | setOrigin {s : Scene α} (spawnOrigin : Vec3 α) :
    Reachable s → Reachable { s with spawnOrigin }
  | beginRun {s : Scene α} : Reachable s → Reachable s.beginRun
  | finishRun {s : Scene α} : Reachable s → Reachable s.finishRun.2

/-- **In a scene that can come about every reference is to a place that was given out.** -/
theorem Reachable.grounded {s : Scene α} (h : s.Reachable) : s.Grounded := by
  induction h with
  | empty catalog links spawnOrigin =>
    refine ⟨?_, by rintro _ ⟨⟩⟩
    intro id e he
    simp [Scene.empty, get?] at he
  | spawn request source _ ih => exact ih.spawn request source
  | dispatch id call _ ih => exact ih.dispatch id call
  | remove id _ ih => exact ih.remove id
  | settle id _ ih => exact ih.modify id fun _ he => ⟨he.parent, he.children⟩
  | setParent child parent keep _ ih => exact ih.setParent child parent keep
  | setPose id pose _ ih => exact ih.setPose id pose
  | setWorld id world _ ih => exact ih.setPose id _
  | setOrigin spawnOrigin _ ih => exact ih.congr rfl ih.holder
  | beginRun _ ih => exact ih.congr rfl (by rintro _ ⟨⟩)
  | finishRun _ ih => exact ih.congr rfl (by rintro _ ⟨⟩)

variable {ρ : Type} [RandomSource ρ α]

/-- A run makes of a scene that can come about another one. -/
theorem worldInvariant_reachable : WorldInvariant ρ (Reachable (α := α)) where
  spawn request _ source h := h.spawn request source
  perform id call _ h := h.dispatch id call
  discard id _ h := h.remove id
  settle id _ h := h.settle id

end Scene

end SpatialGrammar
