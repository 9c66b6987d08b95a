/-
SpatialGrammar/Proofs/Standing.lean

Where the entities of a run stand.

The entities of a run have handles from some `lo` on, and each of them stands in the frame
of an older one of them or of none (`Scene.Rooted`).  So where it stands depends on nothing
younger (`Scene.Rooted.world?_congr`): a method of the youngest object moves that object and
its tiles, and what is entered later moves nothing.
-/
import SpatialGrammar.Proofs.SceneGrowth
import SpatialGrammar.Scene.Confinement

namespace SpatialGrammar

variable {α : Type}

/-- What an entity is and where it stands in which frame. -/
def Entity.standing (e : Entity α) : EntityKind α × Option EntityId × Transform α :=
  (e.kind, e.parent, e.pose)

namespace Scene

/-- What the entity with the given handle is and where it stands in which frame, if it is live. -/
def standing? (s : Scene α) (id : EntityId) :
    Option (EntityKind α × Option EntityId × Transform α) :=
  (s.get? id).map Entity.standing

/-- The frame of an entity from `lo` on is that of an older one from `lo` on, and the frame of any
other is not. -/
structure Rooted (lo : Nat) (s : Scene α) : Prop where
  before : ∀ id e p, id < lo → s.get? id = some e → e.parent = some p → p < lo
  since : ∀ id e p, lo ≤ id → s.get? id = some e → e.parent = some p → lo ≤ p ∧ p < id
  holder : ∀ h, s.holder = some h → lo ≤ h

variable {s t : Scene α} {lo : Nat}

/-- Two entities that stand alike. -/
theorem exists_of_standing? {id : EntityId} {e' : Entity α}
    (h : t.standing? id = s.standing? id) (he' : t.get? id = some e') :
    ∃ e, s.get? id = some e ∧ e'.kind = e.kind ∧ e'.parent = e.parent ∧ e'.pose = e.pose := by
  rw [standing?, he', standing?, Option.map_some] at h
  obtain ⟨e, he, hstanding⟩ := Option.map_eq_some_iff.mp h.symm
  simp only [Entity.standing, Prod.mk.injEq] at hstanding
  exact ⟨e, he, hstanding.1.symm, hstanding.2.1.symm, hstanding.2.2.symm⟩

/-! ### What is above an entity -/

/-- What is above an older entity is older too. -/
theorem Rooted.lt_of_meetsWithin (hs : s.Rooted lo) {fuel : Nat} {id j : EntityId} (hid : id < lo)
    (h : s.meetsWithin j fuel id = true) : j < lo := by
  induction fuel generalizing id with
  | zero => cases h
  | succ fuel ih =>
    unfold meetsWithin at h
    rcases Bool.or_eq_true_iff.mp h with h | h
    · rw [← of_decide_eq_true h]
      exact hid
    · rcases he : s.get? id with - | e
      · simp [he] at h
      · rcases hp : e.parent with - | p
        · simp [he, hp] at h
        · simp only [he, Option.bind_some, hp] at h
          exact ih (hs.before id e p hid he hp) h

/-- In a scene in which everything stands alike the frames are the same. -/
theorem Rooted.congr (hs : s.Rooted lo) (h : ∀ id, t.standing? id = s.standing? id)
    (hholder : t.holder = s.holder) : t.Rooted lo := by
  refine ⟨?_, ?_, by rw [hholder]; exact hs.holder⟩
  · intro id e' p hid he' hp
    obtain ⟨e, he, -, hparent, -⟩ := exists_of_standing? (h id) he'
    exact hs.before id e p hid he (hparent ▸ hp)
  · intro id e' p hid he' hp
    obtain ⟨e, he, -, hparent, -⟩ := exists_of_standing? (h id) he'
    exact hs.since id e p hid he (hparent ▸ hp)

variable [Scalar α]

/-- A live entity stands somewhere. -/
theorem world?_isSome {id : EntityId} {e : Entity α} (he : s.get? id = some e) :
    ∃ pose, s.world? id = some pose := by
  obtain ⟨fuel, hfuel⟩ := Nat.exists_eq_succ_of_ne_zero (Nat.ne_zero_of_lt (lt_size he))
  unfold world?
  rw [hfuel]
  unfold worldWithin
  simp only [he]
  split
  · exact ⟨_, rfl⟩
  · exact ⟨_, rfl⟩

/-- **Where an entity stands depends on nothing younger.** -/
theorem Rooted.worldWithin_congr (hs : s.Rooted lo) {id : EntityId} (hle : lo ≤ id)
    (h : ∀ j, lo ≤ j → j ≤ id → t.standing? j = s.standing? j) {fuel fuel' : Nat}
    (hfuel : id < fuel) (hfuel' : id < fuel') :
    t.worldWithin fuel id = s.worldWithin fuel' id := by
  -- on the handle: the frame of an entity is an older one, which the fuel that is left covers on
  -- both sides
  induction id using Nat.strongRecOn generalizing fuel fuel' with
  | ind id ih =>
    obtain ⟨fuel, rfl⟩ := Nat.exists_eq_succ_of_ne_zero (Nat.ne_zero_of_lt hfuel)
    obtain ⟨fuel', rfl⟩ := Nat.exists_eq_succ_of_ne_zero (Nat.ne_zero_of_lt hfuel')
    have hid := h id hle (Nat.le_refl _)
    unfold worldWithin
    rcases he : s.get? id with - | e
    · have ht : t.get? id = none := by simpa [standing?, he] using hid
      simp only [ht]
    · obtain ⟨e', he', -, hparent, hpose⟩ := exists_of_standing? hid.symm he
      simp only [he', ← hparent, ← hpose]
      rcases hp : e.parent with - | p
      · rfl
      · obtain ⟨hlop, hpid⟩ := hs.since id e p hle he hp
        have hworld := ih p hpid hlop
          (fun j hlo hj => h j hlo (Nat.le_trans hj (Nat.le_of_lt hpid)))
          (Nat.lt_of_lt_of_le hpid (Nat.le_of_lt_succ hfuel))
          (Nat.lt_of_lt_of_le hpid (Nat.le_of_lt_succ hfuel'))
        simp only [hworld]

/-- Nor does the test of a tile. -/
theorem Rooted.tileOutside_congr (hs : s.Rooted lo) (region : Region α) {id : EntityId}
    (hle : lo ≤ id) (h : ∀ j, lo ≤ j → j ≤ id → t.standing? j = s.standing? j)
    (hsize : s.entities.size ≤ t.entities.size) :
    tileOutside region t id = tileOutside region s id := by
  have hid := h id hle (Nat.le_refl _)
  unfold tileOutside
  rcases he : s.get? id with - | e
  · have ht : t.get? id = none := by simpa [standing?, he] using hid
    simp [ht]
  · obtain ⟨e', he', hkind, -, -⟩ := exists_of_standing? hid.symm he
    have hlt := lt_size he
    have hworld : t.world? id = s.world? id :=
      hs.worldWithin_congr hle h (Nat.lt_of_lt_of_le hlt hsize) hlt
    simp [he', hkind, hworld]

/-! ### What requests to the scene leave where it stands -/

omit [Scalar α] in
/-- A change of an entity that does not concern where it stands. -/
theorem standing?_of_map {id : EntityId} {f : Entity α → Entity α}
    (hget : t.get? id = (s.get? id).map f) (hf : ∀ e, (f e).standing = e.standing) :
    t.standing? id = s.standing? id := by
  rw [standing?, hget, Option.map_map]
  exact congrArg (Option.map · (s.get? id)) (funext hf)

omit [Scalar α] in
theorem standing?_setPose {id x : EntityId} (hne : id ≠ x) (s : Scene α) (pose : Transform α) :
    (s.setPose x pose).standing? id = s.standing? id :=
  standing?_of_map (get?_setPose ..) fun e => by simp [Entity.standing, hne]

omit [Scalar α] in
theorem standing?_attach {id x : EntityId} (hne : id ≠ x) (s : Scene α) (parent : EntityId) :
    (s.attach x parent).standing? id = s.standing? id :=
  standing?_of_map (get?_attach ..) fun e => by simp [Entity.standing, hne]

omit [Scalar α] in
theorem standing?_detach {id x : EntityId} (hne : id ≠ x) (s : Scene α) :
    (s.detach x).standing? id = s.standing? id :=
  standing?_of_map (get?_detach ..) fun e => by simp [Entity.standing, hne]

/-- A method changes nothing about where other entities stand, and leaves its own what it is, below
what it was below or below a producer. -/
theorem dispatch_spec [Numeral α] (s : Scene α) (x : EntityId) (call : MethodCall) :
    (∀ id, id ≠ x → (s.dispatch x call).2.standing? id = s.standing? id) ∧
    ((s.dispatch x call).2.get? x).map Entity.kind = (s.get? x).map Entity.kind ∧
    ∀ e', (s.dispatch x call).2.get? x = some e' → ∃ e, s.get? x = some e ∧
      (e'.parent = e.parent ∨ ∃ p, some p ∈ call.lineage ∧ e'.parent = some p) := by
  have hsame : (∀ id, id ≠ x → s.standing? id = s.standing? id) ∧
      (s.get? x).map Entity.kind = (s.get? x).map Entity.kind ∧
      ∀ e', s.get? x = some e' → ∃ e, s.get? x = some e ∧
        (e'.parent = e.parent ∨ ∃ p, some p ∈ call.lineage ∧ e'.parent = some p) :=
    ⟨fun _ _ => rfl, rfl, fun e he => ⟨e, he, .inl rfl⟩⟩
  rcases s.dispatch_cases x call with heq | ⟨pose, heq⟩ | ⟨parent, keep, hmem, heq⟩ <;> rw [heq]
  · exact hsame
  · refine ⟨?_, ?_, ?_⟩
    · exact fun id hne => standing?_setPose hne s pose
    · simp [get?_setPose, Function.comp_def]
    · intro e' he'
      rw [get?_setPose] at he'
      obtain ⟨e, he, rfl⟩ := Option.map_eq_some_iff.mp he'
      exact ⟨e, he, .inl rfl⟩
  · rcases s.setParent_cases x parent keep with heq | ⟨-, -, -, heq | ⟨pose, heq⟩⟩ <;> rw [heq]
    · exact hsame
    · refine ⟨?_, ?_, ?_⟩
      · intro id hne
        rw [standing?_attach hne, standing?_detach hne]
      · simp [get?_attach, get?_detach, Function.comp_def]
      · intro e' he'
        rw [get?_attach, get?_detach, Option.map_map] at he'
        obtain ⟨e, he, rfl⟩ := Option.map_eq_some_iff.mp he'
        exact ⟨e, he, .inr ⟨parent, hmem, if_pos rfl⟩⟩
    · refine ⟨?_, ?_, ?_⟩
      · intro id hne
        rw [standing?_setPose hne, standing?_attach hne, standing?_detach hne]
      · simp [get?_setPose, get?_attach, get?_detach, Function.comp_def]
      · intro e' he'
        rw [get?_setPose, get?_attach, get?_detach, Option.map_map, Option.map_map] at he'
        obtain ⟨e, he, rfl⟩ := Option.map_eq_some_iff.mp he'
        exact ⟨e, he, .inr ⟨parent, hmem, if_pos rfl⟩⟩

omit [Scalar α] in
/-- Being told of the end moves nothing. -/
theorem standing?_settle (s : Scene α) (x id : EntityId) :
    (s.settle x).standing? id = s.standing? id :=
  standing?_of_map (get?_settle s x id) fun _ => rfl

/-- Making sure of a holder moves nothing. -/
theorem standing?_ensureHolder {id : EntityId} (hlt : id < s.entities.size) (name : String) :
    (s.ensureHolder name).2.standing? id = s.standing? id := by
  rcases s.ensureHolder_cases name with ⟨_, -, -, heq⟩ | ⟨-, e, -, -, -, heq⟩ <;> rw [heq]
  have hget : Scene.get? { (s.insert e).2 with holder := some s.entities.size } id = s.get? id :=
    (get?_insert s e id).trans (if_neg (Nat.ne_of_lt hlt))
  rw [standing?, hget, standing?]

/-- **Spawning moves nothing.** -/
theorem standing?_spawn {ρ : Type} [RandomSource ρ α] {id : EntityId} (hlt : id < s.entities.size)
    (request : SpawnRequest) (source : ρ) :
    (s.spawn request source).2.1.standing? id = s.standing? id := by
  obtain ⟨-, n, he⟩ := s.spawn_spec request source
  have hlt' : id < (s.ensureHolder request.name).2.entities.size :=
    Nat.lt_of_lt_of_le hlt (s.size_le_ensureHolder request.name)
  rw [standing?_of_map (he.old id hlt') fun _ => rfl, standing?_ensureHolder hlt]

/-! ### What requests to the scene leave rooted -/

/-- A method of an entity that is younger than all producers above it. -/
theorem Rooted.dispatch [Numeral α] (hs : s.Rooted lo) {x : EntityId} (hx : lo ≤ x)
    {call : MethodCall} (hlineage : ∀ p, some p ∈ call.lineage → lo ≤ p ∧ p < x) :
    (s.dispatch x call).2.Rooted lo := by
  obtain ⟨hother, -, hself⟩ := s.dispatch_spec x call
  refine ⟨?_, ?_, by simpa using hs.holder⟩
  · intro id e' p hid he' hp
    have hne : id ≠ x := Nat.ne_of_lt (Nat.lt_of_lt_of_le hid hx)
    obtain ⟨e, he, -, hparent, -⟩ := exists_of_standing? (hother id hne) he'
    exact hs.before id e p hid he (hparent ▸ hp)
  · intro id e' p hid he' hp
    by_cases hne : id = x
    · subst hne
      obtain ⟨e, he, hparent | ⟨q, hq, hparent⟩⟩ := hself e' he'
      · exact hs.since id e p hid he (hparent ▸ hp)
      · rw [hparent] at hp
        obtain rfl := Option.some.inj hp
        exact hlineage q hq
    · obtain ⟨e, he, -, hparent, -⟩ := exists_of_standing? (hother id hne) he'
      exact hs.since id e p hid he (hparent ▸ hp)

theorem Rooted.ensureHolder (hs : s.Rooted lo) (hsize : lo ≤ s.entities.size) (name : String) :
    (s.ensureHolder name).2.Rooted lo := by
  rcases s.ensureHolder_cases name with ⟨_, -, -, heq⟩ | ⟨-, e₀, -, hp₀, -, heq⟩ <;> rw [heq]
  · exact hs
  have hget (id : EntityId) :
      Scene.get? { (s.insert e₀).2 with holder := some s.entities.size } id =
        if id = s.entities.size then some e₀ else s.get? id := get?_insert s e₀ id
  refine ⟨?_, ?_, ?_⟩
  · intro id e p hid he hp
    rw [hget, if_neg (Nat.ne_of_lt (Nat.lt_of_lt_of_le hid hsize))] at he
    exact hs.before id e p hid he hp
  · intro id e p hid he hp
    rw [hget] at he
    split at he
    · obtain rfl := Option.some.inj he
      rw [hp₀] at hp
      cases hp
    · exact hs.since id e p hid he hp
  · rintro _ ⟨⟩
    exact hsize

omit [Scalar α] in
theorem Rooted.entered {h : EntityId} {n : Nat} (hs : s.Rooted lo) (hsize : lo ≤ s.entities.size)
    (hlt : h < s.entities.size) (hh : s.holder = some h) (he : Entered s h n t) : t.Rooted lo := by
  refine ⟨?_, ?_, ?_⟩
  · intro id e p hid hget hp
    rcases he.cases hget with ⟨-, e₀, he₀, rfl⟩ | ⟨rfl, -⟩ | ⟨hgt, -⟩
    · exact hs.before id e₀ p hid he₀ hp
    · exact absurd hid (Nat.not_lt.mpr hsize)
    · exact absurd hid (Nat.not_lt.mpr (Nat.le_trans hsize (Nat.le_of_lt hgt)))
  · intro id e p hid hget hp
    rcases he.cases hget with ⟨-, e₀, he₀, rfl⟩ | ⟨rfl, hparent, -⟩ | ⟨hgt, -, hparent, -⟩
    · exact hs.since id e₀ p hid he₀ hp
    · rw [hparent] at hp
      obtain rfl := Option.some.inj hp
      exact ⟨hs.holder h hh, hlt⟩
    · rw [hparent] at hp
      obtain rfl := Option.some.inj hp
      exact ⟨hsize, hgt⟩
  · rw [he.holder]
    exact hs.holder

/-- The entity of an object, and its tiles. -/
theorem Rooted.spawn {ρ : Type} [RandomSource ρ α] (hs : s.Rooted lo)
    (hsize : lo ≤ s.entities.size) (request : SpawnRequest) (source : ρ) :
    (s.spawn request source).2.1.Rooted lo := by
  obtain ⟨-, n, he⟩ := s.spawn_spec request source
  exact (hs.ensureHolder hsize request.name).entered
    (Nat.le_trans hsize (s.size_le_ensureHolder request.name)) (s.ensureHolder_lt request.name)
    (s.holder_ensureHolder request.name) he

end Scene

end SpatialGrammar
