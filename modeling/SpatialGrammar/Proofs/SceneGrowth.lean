/-
SpatialGrammar/Proofs/SceneGrowth.lean

How a scene grows in a pass, and how it is cut back.

A pass hangs new entities below the holder, lets a method hang an object below an older
entity, and fills generators.  `Scene.Grown` says what a scene looks like after that,
compared with the scene `s₀` in which the pass began.  What was there before is as it was
but for new children, which come after its own.  What is new is the holder, an object, or
a tile below an object (`Scene.Role`); nothing hangs below a tile, and nothing that is new
hangs below an object but its tiles.  So an object that is removed takes its tiles along
and nothing else (`Grown.remove`), and when all objects are removed the scene is as it was,
except that the holder may be new (`Grown.restored`).
-/
import SpatialGrammar.Proofs.SceneReach

namespace SpatialGrammar

variable {α : Type}

/-- The entity without the children that have a handle from `n` on. -/
def Entity.upTo (n : Nat) (e : Entity α) : Entity α :=
  { e with children := e.children.filter fun c => decide (c < n) }

/-- The part of an entity that has a handle from `n` on, where `objects` are the entities made for
objects and not taken back. -/
inductive Entity.Role (n : Nat) (holder : Option EntityId) (objects : List EntityId) (id : EntityId)
    (e : Entity α) : Prop where
  /-- The holder of the run, which is the first to be made. -/
  | holder (place : id = n) (current : holder = some id) (kind : e.kind = .holder)
    (root : e.parent = none)
  /-- The entity of an object, below the holder or an older entity. -/
  | object (mem : id ∈ objects) (below : ∀ p, e.parent = some p → p < n ∨ holder = some p)
  /-- A tile of a generator. -/
  | tile (other : holder ≠ some id) (notMem : id ∉ objects) (leaf : e.children = [])
    (below : ∃ x ∈ objects, e.parent = some x)

namespace Scene

/-- What has become of the scene `s₀` when the entities `objects` have been made for objects. -/
structure Grown (s₀ : Scene α) (objects : List EntityId) (s : Scene α) : Prop where
  grounded : s₀.Grounded
  size_le : s₀.entities.size ≤ s.entities.size
  old : ∀ id < s₀.entities.size, (s.get? id).map (Entity.upTo s₀.entities.size) = s₀.get? id
  nodup : objects.Nodup
  live : ∀ x ∈ objects, s₀.entities.size ≤ x ∧ s.holder ≠ some x ∧ ∃ e, s.get? x = some e
  role : ∀ id e, s₀.entities.size ≤ id → s.get? id = some e →
    e.Role s₀.entities.size s.holder objects id
  children_new : ∀ id e, s₀.entities.size ≤ id → s.get? id = some e →
    ∀ c ∈ e.children, s₀.entities.size ≤ c
  child_live : ∀ id e c, s.get? id = some e → s₀.entities.size ≤ c → c ∈ e.children →
    ∃ ec, s.get? c = some ec
  link : ∀ id e c ec, s.get? id = some e → s₀.entities.size ≤ c → s.get? c = some ec →
    (c ∈ e.children ↔ ec.parent = some id)
  holder : s.holder = s₀.holder ∨
    s.holder = some s₀.entities.size ∧ ∀ h, s₀.holder = some h → s₀.get? h = none
  holder_live : s₀.entities.size < s.entities.size →
    ∃ h e, s.holder = some h ∧ s.get? h = some e

namespace Grown

variable {s₀ s : Scene α} {objects : List EntityId} {x : EntityId}

/-- A scene has not grown when the pass begins. -/
theorem start (h : s₀.Grounded) : Grown s₀ [] s₀ where
  grounded := h
  size_le := Nat.le_refl _
  old := by
    intro id _
    rcases he : s₀.get? id with - | e
    · rfl
    · have hchildren : e.children.filter (fun c => decide (c < s₀.entities.size)) = e.children :=
        List.filter_eq_self.mpr fun c hc => decide_eq_true ((h.entity id e he).children c hc)
      simp [Entity.upTo, hchildren]
  nodup := List.nodup_nil
  live := by simp
  role := fun _ _ hle he => absurd (lt_size he) (Nat.not_lt.mpr hle)
  children_new := fun _ _ hle he => absurd (lt_size he) (Nat.not_lt.mpr hle)
  child_live := fun id e c he hle hc =>
    absurd ((h.entity id e he).children c hc) (Nat.not_lt.mpr hle)
  link := fun _ _ _ _ _ hle hc => absurd (lt_size hc) (Nat.not_lt.mpr hle)
  holder := .inl rfl
  holder_live := fun hlt => absurd hlt (Nat.lt_irrefl _)

/-- **When nothing is left of the objects, every entity is what it was, and one that is new is the
holder, where there was none, and has no children.** -/
theorem restored (h : Grown s₀ [] s) :
    (∀ id < s₀.entities.size, s.get? id = s₀.get? id) ∧
    ∀ id e, s₀.entities.size ≤ id → s.get? id = some e →
      id = s₀.entities.size ∧ s.holder = some id ∧ e.kind = .holder ∧ e.parent = none ∧
        e.children = [] ∧ ∀ j, s₀.holder = some j → s₀.get? j = none := by
  have hnew (id : EntityId) (e : Entity α) (hle : s₀.entities.size ≤ id) (he : s.get? id = some e) :
      id = s₀.entities.size ∧ s.holder = some id ∧ e.kind = .holder ∧ e.parent = none := by
    cases h.role id e hle he with
    | holder place current kind root => exact ⟨place, current, kind, root⟩
    | object mem => cases mem
    | tile _ _ _ below =>
      obtain ⟨x, hx, -⟩ := below
      cases hx
  -- a new child would have a parent, but what is new has none
  have hchildren (id : EntityId) (e : Entity α) (he : s.get? id = some e) :
      ∀ c ∈ e.children, c < s₀.entities.size := by
    refine fun c hc => Nat.lt_of_not_le fun hle => ?_
    obtain ⟨ec, hec⟩ := h.child_live id e c he hle hc
    have hparent : ec.parent = some id := (h.link id e c ec he hle hec).mp hc
    obtain ⟨-, -, -, hroot⟩ := hnew c ec hle hec
    rw [hroot] at hparent
    cases hparent
  refine ⟨?_, ?_⟩
  · intro id hid
    rw [← h.old id hid]
    rcases he : s.get? id with - | e
    · rfl
    · have hfilter : e.children.filter (fun c => decide (c < s₀.entities.size)) = e.children :=
        List.filter_eq_self.mpr fun c hc => decide_eq_true (hchildren id e he c hc)
      simp [Entity.upTo, hfilter]
  · intro id e hle he
    obtain ⟨hplace, hcurrent, hkind, hroot⟩ := hnew id e hle he
    refine ⟨hplace, hcurrent, hkind, hroot, ?_, ?_⟩
    · refine List.eq_nil_iff_forall_not_mem.mpr fun c hc => ?_
      exact Nat.not_le.mpr (hchildren id e he c hc) (h.children_new id e hle he c hc)
    · rcases h.holder with hsame | ⟨-, hdead⟩
      · rw [hsame] at hcurrent
        exact absurd (h.grounded.holder id hcurrent) (Nat.not_lt.mpr hle)
      · exact hdead

/-- A change of each entity on its own keeps this if, of what is new, it gives parents to objects
only and takes children away at most, and if children and parents still fit. -/
theorem map {t : Scene α} {f : EntityId → Entity α → Entity α} (h : Grown s₀ objects s)
    (hget : ∀ id, t.get? id = (s.get? id).map (f id))
    (hsize : t.entities.size = s.entities.size) (hholder : t.holder = s.holder)
    (hold : ∀ id < s₀.entities.size, ∀ e,
      (f id e).upTo s₀.entities.size = e.upTo s₀.entities.size)
    (hkind : ∀ id e, (f id e).kind = e.kind)
    (hparent : ∀ id e, (f id e).parent = e.parent ∨
      id ∈ objects ∧ ∀ p, (f id e).parent = some p → p < s₀.entities.size)
    (hchildren : ∀ id e, s₀.entities.size ≤ id → ∀ c ∈ (f id e).children, c ∈ e.children)
    (hlive : ∀ id e c, s.get? id = some e → s₀.entities.size ≤ c → c ∈ (f id e).children →
      ∃ ec, s.get? c = some ec)
    (hlink : ∀ id e c ec, s.get? id = some e → s₀.entities.size ≤ c → s.get? c = some ec →
      (c ∈ (f id e).children ↔ (f c ec).parent = some id)) : Grown s₀ objects t := by
  have hinv {id : EntityId} {e' : Entity α} (he' : t.get? id = some e') :
      ∃ e, s.get? id = some e ∧ f id e = e' := by
    rw [hget] at he'
    exact Option.map_eq_some_iff.mp he'
  have hkeep {id : EntityId} {e : Entity α} (he : s.get? id = some e) :
      t.get? id = some (f id e) := by
    rw [hget, he]
    rfl
  refine ⟨h.grounded, ?_, ?_, h.nodup, ?_, ?_, ?_, ?_, ?_, ?_, ?_⟩
  · -- size_le
    rw [hsize]
    exact h.size_le
  · -- old
    intro id hid
    rw [hget, ← h.old id hid, Option.map_map]
    exact congrArg (Option.map · (s.get? id)) (funext (hold id hid))
  · -- live
    intro x hx
    obtain ⟨hle, hother, e, he⟩ := h.live x hx
    exact ⟨hle, by rwa [hholder], _, hkeep he⟩
  · -- role: what is given another parent is an object, and the others keep theirs
    intro id e' hle he'
    obtain ⟨e, he, rfl⟩ := hinv he'
    rw [hholder]
    rcases hparent id e with hp | ⟨hmem, hp⟩
    · cases h.role id e hle he with
      | holder place current kind root =>
        exact .holder place current ((hkind id e).trans kind) (hp.trans root)
      | object mem below => exact .object mem (by rwa [hp])
      | tile other notMem leaf below =>
        refine .tile other notMem (List.eq_nil_iff_forall_not_mem.mpr fun c hc => ?_) (by rwa [hp])
        have hc := hchildren id e hle c hc
        rw [leaf] at hc
        cases hc
    · exact .object hmem fun p hfp => .inl (hp p hfp)
  · -- children_new
    intro id e' hle he' c hc
    obtain ⟨e, he, rfl⟩ := hinv he'
    exact h.children_new id e hle he c (hchildren id e hle c hc)
  · -- child_live
    intro id e' c he' hle hc
    obtain ⟨e, he, rfl⟩ := hinv he'
    obtain ⟨ec, hec⟩ := hlive id e c he hle hc
    exact ⟨_, hkeep hec⟩
  · -- link
    intro id e' c ec' he' hle hec'
    obtain ⟨e, he, rfl⟩ := hinv he'
    obtain ⟨ec, hec, rfl⟩ := hinv hec'
    exact hlink id e c ec he hle hec
  · -- holder
    rw [hholder]
    exact h.holder
  · -- holder_live
    intro hlt
    rw [hsize] at hlt
    obtain ⟨j, e, hj, he⟩ := h.holder_live hlt
    exact ⟨j, _, by rw [hholder, hj], hkeep he⟩

/-- An object may be moved. -/
theorem setPose (h : Grown s₀ objects s) (hx : x ∈ objects) (pose : Transform α) :
    Grown s₀ objects (s.setPose x pose) := by
  refine h.map (s.get?_setPose x pose) (size_modify ..) rfl ?_ (fun _ _ => rfl)
    (fun _ _ => .inl rfl) (fun _ _ _ _ hc => hc)
    (fun id e c he hle hc => h.child_live id e c he hle hc)
    fun id e c ec he hle hec => h.link id e c ec he hle hec
  intro id hid e
  have hne : id ≠ x := Nat.ne_of_lt (Nat.lt_of_lt_of_le hid (h.live x hx).1)
  rw [if_neg hne]

/-- An object may be taken away from what it is below of. -/
theorem detach (h : Grown s₀ objects s) (hx : x ∈ objects) : Grown s₀ objects (s.detach x) := by
  have hxle := (h.live x hx).1
  refine h.map (s.get?_detach x) (size_detach ..) (holder_detach ..) ?_ (fun _ _ => rfl) ?_ ?_ ?_ ?_
  · -- old entities lose a child that is new
    intro id hid e
    have hne : id ≠ x := Nat.ne_of_lt (Nat.lt_of_lt_of_le hid hxle)
    have hfilter : (e.children.filter (· ≠ x)).filter (fun c => decide (c < s₀.entities.size)) =
        e.children.filter fun c => decide (c < s₀.entities.size) := by
      rw [List.filter_filter]
      refine List.filter_congr fun c _ => ?_
      by_cases hc : c < s₀.entities.size
      · simp [hc, Nat.ne_of_lt (Nat.lt_of_lt_of_le hc hxle)]
      · simp [hc]
    simp only [Entity.upTo, if_neg hne]
    split
    · rw [hfilter]
    · rfl
  · -- the object loses its parent
    intro id e
    by_cases hid : id = x
    · exact .inr ⟨hid ▸ hx, by simp [hid]⟩
    · exact .inl (if_neg hid)
  · -- children are taken away only
    intro id e _ c hc
    dsimp only at hc
    split at hc
    · exact (List.mem_filter.mp hc).1
    · exact hc
  · -- so the children are live still
    intro id e c he hle hc
    refine h.child_live id e c he hle ?_
    dsimp only at hc
    split at hc
    · exact (List.mem_filter.mp hc).1
    · exact hc
  · -- the object is among the children of none, and has no parent
    intro id e c ec he hle hec
    have hlink := h.link id e c ec he hle hec
    dsimp only
    by_cases hc : c = x
    · rw [← hc, hec]
      split
      · simp
      · next hp => simpa [hlink] using hp
    · rw [if_neg hc, ← hlink]
      split
      · simp [hc]
      · rfl

/-- An object that is below nothing may be hung below an older entity. -/
theorem attach (h : Grown s₀ objects s) (hx : x ∈ objects) {parent : EntityId}
    (hlt : parent < s₀.entities.size) (hloose : ∀ e, s.get? x = some e → e.parent = none) :
    Grown s₀ objects (s.attach x parent) := by
  obtain ⟨hxle, -, ex, hex⟩ := h.live x hx
  refine h.map (s.get?_attach x parent) (size_attach ..) rfl ?_ (fun _ _ => rfl) ?_ ?_ ?_ ?_
  · -- old entities get a child that is new
    intro id hid e
    have hne : id ≠ x := Nat.ne_of_lt (Nat.lt_of_lt_of_le hid hxle)
    simp only [Entity.upTo, if_neg hne, List.filter_append]
    split
    · simp [Nat.not_lt.mpr hxle]
    · simp
  · -- the parent of the object is old
    intro id e
    by_cases hid : id = x
    · refine .inr ⟨hid ▸ hx, ?_⟩
      simp only [if_pos hid, Option.some.injEq]
      rintro p rfl
      exact hlt
    · exact .inl (if_neg hid)
  · -- nothing new gets a child
    intro id e hle c hc
    have hne : id ≠ parent := Nat.ne_of_gt (Nat.lt_of_lt_of_le hlt hle)
    simpa [hne] using hc
  · -- the child is live
    intro id e c he hle hc
    rcases List.mem_append.mp hc with hc | hc
    · exact h.child_live id e c he hle hc
    · split at hc
      · rw [List.mem_singleton.mp hc]
        exact ⟨ex, hex⟩
      · cases hc
  · -- the object is below its new parent, and was below nothing
    intro id e c ec he hle hec
    have hlink := h.link id e c ec he hle hec
    dsimp only
    rw [List.mem_append, hlink]
    by_cases hc : c = x
    · rw [hc] at hec
      rw [if_pos hc, hloose ec hec, hc]
      by_cases hid : id = parent
      · simp [hid]
      · simp [hid, Ne.symm hid]
    · rw [if_neg hc]
      split
      · simp [hc]
      · simp

/-- What is new is below something that has a place. -/
theorem parent_lt (h : Grown s₀ objects s) {id p : EntityId} {e : Entity α}
    (hle : s₀.entities.size ≤ id) (he : s.get? id = some e) (hp : e.parent = some p) :
    p < s.entities.size := by
  cases h.role id e hle he with
  | holder _ _ _ root => rw [root] at hp; cases hp
  | object _ below =>
    rcases below p hp with hlt | hcurrent
    · exact Nat.lt_of_lt_of_le hlt h.size_le
    · rcases h.holder with hsame | ⟨hnew, -⟩
      · rw [hsame] at hcurrent
        exact Nat.lt_of_lt_of_le (h.grounded.holder p hcurrent) h.size_le
      · rw [hnew] at hcurrent
        rw [← Option.some.inj hcurrent]
        exact Nat.lt_of_le_of_lt hle (lt_size he)
  | tile _ _ _ below =>
    obtain ⟨x, hx, hparent⟩ := below
    rw [hp] at hparent
    obtain rfl := Option.some.inj hparent
    obtain ⟨-, -, ex, hex⟩ := h.live p hx
    exact lt_size hex

/-- The holder is kept if there is one, and else it is the first that is new. -/
theorem ensureHolder [Scalar α] (h : Grown s₀ objects s) (name : String) :
    Grown s₀ objects (s.ensureHolder name).2 ∧
      (s.ensureHolder name).2.holder = some (s.ensureHolder name).1 ∧
      ∃ e, (s.ensureHolder name).2.get? (s.ensureHolder name).1 = some e := by
  rcases s.ensureHolder_cases name with ⟨j, hj, hlive, heq⟩ | ⟨hdead, e, hkind, hp, hc, heq⟩ <;>
    rw [heq]
  · exact ⟨h, hj, hlive⟩
  -- without a holder nothing new was made so far
  have hsize : s.entities.size = s₀.entities.size := by
    refine Nat.le_antisymm (Nat.le_of_not_lt fun hlt => ?_) h.size_le
    obtain ⟨j, ej, hj, hej⟩ := h.holder_live hlt
    rw [hdead j hj] at hej
    cases hej
  have hnone {id : EntityId} {ei : Entity α} (hle : s₀.entities.size ≤ id) : s.get? id ≠ some ei :=
    fun he => Nat.not_lt.mpr hle (hsize ▸ lt_size he)
  have hget (id : EntityId) : Scene.get? { (s.insert e).2 with holder := some s.entities.size } id =
      if id = s.entities.size then some e else s.get? id := get?_insert s e id
  refine ⟨⟨h.grounded, ?_, ?_, h.nodup, ?_, ?_, ?_, ?_, ?_, .inr ⟨congrArg some hsize, ?_⟩, ?_⟩,
    rfl, e, ?_⟩
  · -- size_le
    show s₀.entities.size ≤ (s.insert e).2.entities.size
    rw [size_insert]
    exact Nat.le_succ_of_le h.size_le
  · -- old
    intro id hid
    rw [hget, if_neg (Nat.ne_of_lt (hsize ▸ hid)), h.old id hid]
  · -- live: there are no objects
    intro x hx
    obtain ⟨hle, -, ex, hex⟩ := h.live x hx
    exact absurd hex (hnone hle)
  · -- role: only the holder is new
    intro id e' hle he'
    rw [hget] at he'
    split at he'
    · next hid =>
      obtain rfl := Option.some.inj he'
      exact .holder (hid.trans hsize) (congrArg some hid.symm) hkind hp
    · exact absurd he' (hnone hle)
  · -- children_new
    intro id e' hle he' c hc'
    rw [hget] at he'
    split at he'
    · obtain rfl := Option.some.inj he'
      rw [hc] at hc'
      cases hc'
    · exact absurd he' (hnone hle)
  · -- child_live
    intro id e' c he' hle hc'
    rw [hget] at he'
    split at he'
    · obtain rfl := Option.some.inj he'
      rw [hc] at hc'
      cases hc'
    · obtain ⟨ec, hec⟩ := h.child_live id e' c he' hle hc'
      exact absurd hec (hnone hle)
  · -- link: the holder is below nothing, and nothing is below it
    intro id e' c ec he' hle hec
    rw [hget] at hec
    split at hec
    · obtain rfl := Option.some.inj hec
      rw [hp]
      refine iff_of_false (fun hc' => ?_) (by simp)
      rw [hget] at he'
      split at he'
      · obtain rfl := Option.some.inj he'
        rw [hc] at hc'
        cases hc'
      · obtain ⟨ec', hec'⟩ := h.child_live id e' c he' hle hc'
        exact hnone hle hec'
    · exact absurd hec (hnone hle)
  · -- holder
    intro j hj
    rcases h.holder with hsame | ⟨-, hdead'⟩
    · rw [← h.old j (h.grounded.holder j hj), hdead j (hsame.trans hj)]
      rfl
    · exact hdead' j hj
  · -- holder_live
    exact fun _ => ⟨_, e, rfl, by rw [hget, if_pos rfl]⟩
  · -- the holder is live
    rw [hget, if_pos rfl]

/-- Another object is entered below the holder. -/
theorem entered (h : Grown s₀ objects s) {j : EntityId} (hcurrent : s.holder = some j)
    (hlive : ∃ e, s.get? j = some e) {n : Nat} {s' : Scene α} (he : Entered s j n s') :
    Grown s₀ (objects ++ [s.entities.size]) s' := by
  obtain ⟨ej, hej⟩ := hlive
  have hj := lt_size hej
  have hlt {x : EntityId} (hx : x ∈ objects) : x < s.entities.size := by
    obtain ⟨-, -, ex, hex⟩ := h.live x hx
    exact lt_size hex
  have hkeep {id : EntityId} {e : Entity α} (hid : s.get? id = some e) :
      s'.get? id = some { e with
        children := e.children ++ if id = j then [s.entities.size] else [] } := by
    rw [he.old id (lt_size hid), hid]
    rfl
  have hnone {id : EntityId} {e : Entity α} (hle : s.entities.size ≤ id) : s.get? id ≠ some e :=
    fun hid => Nat.not_lt.mpr hle (lt_size hid)
  refine ⟨h.grounded, ?_, ?_, ?_, ?_, ?_, ?_, ?_, ?_, ?_, ?_⟩
  · -- size_le
    rw [he.size, Nat.add_assoc]
    exact Nat.le_trans h.size_le (Nat.le_add_right _ _)
  · -- old
    intro id hid
    rw [he.old id (Nat.lt_of_lt_of_le hid h.size_le), ← h.old id hid, Option.map_map]
    refine congrArg (Option.map · (s.get? id)) (funext fun e => ?_)
    simp only [Function.comp, Entity.upTo, List.filter_append]
    split
    · simp [Nat.not_lt.mpr h.size_le]
    · simp
  · -- nodup
    refine List.nodup_append.mpr ⟨h.nodup, by simp, ?_⟩
    intro x hx y hy
    rw [List.mem_singleton.mp hy]
    exact Nat.ne_of_lt (hlt hx)
  · -- live
    intro x hx
    rw [he.holder]
    rcases List.mem_append.mp hx with hx | hx
    · obtain ⟨hle, hother, ex, hex⟩ := h.live x hx
      exact ⟨hle, hother, _, hkeep hex⟩
    · rw [List.mem_singleton.mp hx]
      obtain ⟨e, hobject, -⟩ := he.object
      refine ⟨h.size_le, ?_, e, hobject⟩
      rw [hcurrent]
      exact fun heq => Nat.ne_of_lt hj (Option.some.inj heq)
  · -- role: the first entity is an object, and those after it are its tiles
    intro id e hle hid
    rw [he.holder]
    rcases he.cases hid with ⟨hlt', e₀, he₀, rfl⟩ | ⟨rfl, hparent, -, -⟩ |
      ⟨hgt, -, hparent, hchildren⟩
    · cases h.role id e₀ hle he₀ with
      | holder place current kind root => exact .holder place current kind root
      | object mem below => exact .object (List.mem_append_left _ mem) below
      | tile other notMem leaf below =>
        obtain ⟨x, hx, hparent⟩ := below
        have hne : id ≠ j := fun heq => other (heq ▸ hcurrent)
        refine .tile other ?_ (by simp [leaf, hne]) ⟨x, List.mem_append_left _ hx, hparent⟩
        simp [notMem, Nat.ne_of_lt hlt']
    · refine .object (List.mem_append_right _ (List.mem_singleton_self _)) fun p hp => .inr ?_
      rw [hcurrent, ← hparent, hp]
    · refine .tile ?_ ?_ hchildren ⟨_, List.mem_append_right _ (List.mem_singleton_self _), hparent⟩
      · rw [hcurrent]
        exact fun heq => Nat.ne_of_lt (Nat.lt_trans hj hgt) (Option.some.inj heq)
      · intro hmem
        rcases List.mem_append.mp hmem with hmem | hmem
        · exact Nat.lt_asymm hgt (hlt hmem)
        · exact Nat.ne_of_gt hgt (List.mem_singleton.mp hmem)
  · -- children_new
    intro id e hle hid c hc
    rcases (he.mem_children hj hid c).mp hc with ⟨e₀, he₀, hc⟩ | ⟨rfl, -⟩ | ⟨hgt, -, -⟩
    · exact h.children_new id e₀ hle he₀ c hc
    · exact h.size_le
    · exact Nat.le_trans h.size_le (Nat.le_of_lt hgt)
  · -- child_live
    intro id e c hid hle hc
    rcases (he.mem_children hj hid c).mp hc with ⟨e₀, he₀, hc⟩ | ⟨rfl, -⟩ | ⟨hgt, hcn, -⟩
    · obtain ⟨ec, hec⟩ := h.child_live id e₀ c he₀ hle hc
      exact ⟨_, hkeep hec⟩
    · obtain ⟨e', he', -⟩ := he.object
      exact ⟨e', he'⟩
    · obtain ⟨e', he', -⟩ := he.tile c hgt hcn
      exact ⟨e', he'⟩
  · -- link: what is entered is below the holder or the object, and nothing older is
    intro id e c ec hid hle hec
    rw [he.mem_children hj hid, he.parent_eq hec]
    refine or_congr_left ⟨?_, ?_⟩
    · rintro ⟨e₀, he₀, hc⟩
      obtain ⟨ec₀, hec₀⟩ := h.child_live id e₀ c he₀ hle hc
      exact ⟨ec₀, hec₀, (h.link id e₀ c ec₀ he₀ hle hec₀).mp hc⟩
    · rintro ⟨ec₀, hec₀, hparent⟩
      have hidlt := h.parent_lt hle hec₀ hparent
      rcases he.cases hid with ⟨-, e₀, he₀, -⟩ | ⟨rfl, -⟩ | ⟨hgt, -⟩
      · exact ⟨e₀, he₀, (h.link id e₀ c ec₀ he₀ hle hec₀).mpr hparent⟩
      · exact absurd hidlt (Nat.lt_irrefl _)
      · exact absurd hidlt (Nat.lt_asymm hgt)
  · -- holder
    rw [he.holder]
    exact h.holder
  · -- holder_live
    exact fun _ => ⟨j, _, by rw [he.holder, hcurrent], hkeep hej⟩

/-- **Spawning enters another object.** -/
theorem spawn [Scalar α] {ρ : Type} [RandomSource ρ α] (h : Grown s₀ objects s)
    (request : SpawnRequest) (source : ρ) :
    Grown s₀ (objects ++ [(s.spawn request source).1.1]) (s.spawn request source).2.1 := by
  obtain ⟨hid, n, he⟩ := s.spawn_spec request source
  obtain ⟨hh, hcurrent, hlive⟩ := h.ensureHolder request.name
  rw [hid]
  exact hh.entered hcurrent hlive he

/-- A method of an object keeps this, if the producers above the object are older. -/
theorem dispatch [Scalar α] [Numeral α] (h : Grown s₀ objects s) (hx : x ∈ objects)
    {call : MethodCall} (hlineage : ∀ p, some p ∈ call.lineage → p < s₀.entities.size) :
    Grown s₀ objects (s.dispatch x call).2 := by
  rcases s.dispatch_cases x call with heq | ⟨pose, heq⟩ | ⟨parent, keep, hmem, heq⟩ <;> rw [heq]
  · exact h
  · exact h.setPose hx pose
  · rcases s.setParent_cases x parent keep with heq | ⟨-, -, -, heq⟩
    · rw [heq]
      exact h
    · have hloose : ∀ e, (s.detach x).get? x = some e → e.parent = none := by
        intro e he
        rw [get?_detach] at he
        obtain ⟨e', -, rfl⟩ := Option.map_eq_some_iff.mp he
        exact if_pos rfl
      have ha := (h.detach hx).attach hx (hlineage parent hmem) hloose
      rcases heq with heq | ⟨pose, heq⟩ <;> rw [heq]
      · exact ha
      · exact ha.setPose hx pose

/-- What hangs below an object are its tiles. -/
theorem tile_of_mem_children (h : Grown s₀ objects s) (hx : x ∈ objects) {ex ec : Entity α}
    (hex : s.get? x = some ex) {c : EntityId} (hc : c ∈ ex.children) (hec : s.get? c = some ec) :
    s₀.entities.size ≤ c ∧ s.holder ≠ some c ∧ c ∉ objects ∧ ec.children = [] := by
  obtain ⟨hxle, hxother, -⟩ := h.live x hx
  have hle := h.children_new x ex hxle hex c hc
  have hparent : ec.parent = some x := (h.link x ex c ec hex hle hec).mp hc
  cases h.role c ec hle hec with
  | holder _ _ _ root => rw [root] at hparent; cases hparent
  | object _ below =>
    rcases below x hparent with hlt | hcurrent
    · exact absurd hlt (Nat.not_lt.mpr hxle)
    · exact absurd hcurrent hxother
  | tile other notMem leaf _ => exact ⟨hle, other, notMem, leaf⟩

/-- Where there is an object there is a holder too. -/
theorem one_lt_size (h : Grown s₀ objects s) (hx : x ∈ objects) : 1 < s.entities.size := by
  obtain ⟨hxle, hother, ex, hex⟩ := h.live x hx
  have hxlt := lt_size hex
  obtain ⟨j, ej, hj, hej⟩ := h.holder_live (Nat.lt_of_le_of_lt hxle hxlt)
  have hjlt := lt_size hej
  have hne : j ≠ x := fun he => hother (he ▸ hj)
  -- whichever of the two is younger has an older one before it
  rcases Nat.lt_or_gt_of_ne hne with hlt | hgt
  · exact Nat.lt_of_le_of_lt (Nat.lt_of_le_of_lt (Nat.zero_le j) hlt) hxlt
  · exact Nat.lt_of_le_of_lt (Nat.lt_of_le_of_lt (Nat.zero_le x) hgt) hjlt

/-- What is found after an object has been removed. -/
theorem get?_remove (h : Grown s₀ objects s) (hx : x ∈ objects) :
    ∃ ex, (s.detach x).get? x = some ex ∧ ex.parent = none ∧ ∀ id, (s.remove x).get? id =
      if id = x ∨ id ∈ ex.children then none else (s.detach x).get? id := by
  have hd := h.detach hx
  obtain ⟨hxle, -, ex, hex⟩ := hd.live x hx
  have hroot : ex.parent = none := by
    rw [get?_detach] at hex
    obtain ⟨e', -, rfl⟩ := Option.map_eq_some_iff.mp hex
    exact if_pos rfl
  refine ⟨ex, hex, hroot, get?_clear_flat hex (h.one_lt_size hx) ?_ ?_⟩
  · intro hself
    have hparent := (hd.link x ex x ex hex hxle hex).mp hself
    rw [hroot] at hparent
    cases hparent
  · exact fun c hc ec hec => (hd.tile_of_mem_children hx hex hc hec).2.2.2

/-- **An object is removed with its tiles**, and with nothing else. -/
theorem remove (h : Grown s₀ (x :: objects) s) : Grown s₀ objects (s.remove x) := by
  have hx : x ∈ x :: objects := List.mem_cons_self
  have hd := h.detach hx
  have hxle := (h.live x hx).1
  obtain ⟨ex, hex, hroot, hget⟩ := h.get?_remove hx
  have htile {c : EntityId} (hc : c ∈ ex.children) :
      s₀.entities.size ≤ c ∧ (s.detach x).holder ≠ some c ∧ c ∉ x :: objects := by
    obtain ⟨ec, hec⟩ := hd.child_live x ex c hex (hd.children_new x ex hxle hex c hc) hc
    obtain ⟨hle, hother, hnot, -⟩ := hd.tile_of_mem_children hx hex hc hec
    exact ⟨hle, hother, hnot⟩
  have hkeep {id : EntityId} (hne : id ≠ x) (hnot : id ∉ ex.children) :
      (s.remove x).get? id = (s.detach x).get? id := by
    rw [hget, if_neg (by simp [hne, hnot])]
  have hinv {id : EntityId} {e : Entity α} (he : (s.remove x).get? id = some e) :
      id ≠ x ∧ id ∉ ex.children ∧ (s.detach x).get? id = some e := by
    rw [hget] at he
    split at he
    · cases he
    · next hn => exact ⟨fun hid => hn (.inl hid), fun hid => hn (.inr hid), he⟩
  have hholder : (s.remove x).holder = (s.detach x).holder := by simp
  obtain ⟨hxnot, hnodup⟩ := List.nodup_cons.mp h.nodup
  refine ⟨h.grounded, by simpa using h.size_le, ?_, hnodup, ?_, ?_, ?_, ?_, ?_, ?_, ?_⟩
  · -- old
    intro id hid
    rw [hkeep, hd.old id hid]
    · exact Nat.ne_of_lt (Nat.lt_of_lt_of_le hid hxle)
    · exact fun hc => Nat.not_lt.mpr (htile hc).1 hid
  · -- live
    intro y hy
    have hmem := List.mem_cons_of_mem x hy
    obtain ⟨hle, hother, e, he⟩ := hd.live y hmem
    refine ⟨hle, by rwa [hholder], e, ?_⟩
    rw [hkeep, he]
    · exact fun hyx => hxnot (hyx ▸ hy)
    · exact fun hc => (htile hc).2.2 hmem
  · -- role: the tiles of the object went with it
    intro id e hle he
    obtain ⟨hne, hnot, he⟩ := hinv he
    rw [hholder]
    cases hd.role id e hle he with
    | holder place current kind root => exact .holder place current kind root
    | object mem below => exact .object ((List.mem_cons.mp mem).resolve_left hne) below
    | tile other notMem leaf below =>
      refine .tile other (fun hm => notMem (List.mem_cons_of_mem x hm)) leaf ?_
      obtain ⟨y, hy, hparent⟩ := below
      rcases List.mem_cons.mp hy with rfl | hy
      · exact absurd ((hd.link y ex id e hex hle he).mpr hparent) hnot
      · exact ⟨y, hy, hparent⟩
  · -- children_new
    intro id e hle he
    exact hd.children_new id e hle (hinv he).2.2
  · -- a child that is left is below what is left, so it is not among those that were taken
    intro id e c he hle hc
    obtain ⟨hne, -, he⟩ := hinv he
    obtain ⟨ec, hec⟩ := hd.child_live id e c he hle hc
    have hparent := (hd.link id e c ec he hle hec).mp hc
    refine ⟨ec, ?_⟩
    rw [hkeep, hec]
    · rintro rfl
      rw [hex] at hec
      obtain rfl := Option.some.inj hec
      rw [hroot] at hparent
      cases hparent
    · intro hcx
      have hparentx := (hd.link x ex c ec hex hle hec).mp hcx
      rw [hparent] at hparentx
      exact hne (Option.some.inj hparentx)
  · -- link
    intro id e c ec he hle hec
    exact hd.link id e c ec (hinv he).2.2 hle (hinv hec).2.2
  · -- holder
    rw [hholder]
    exact hd.holder
  · -- holder_live
    intro hlt
    rw [size_remove] at hlt
    obtain ⟨j, e, hj, he⟩ := hd.holder_live (by rwa [size_detach])
    refine ⟨j, e, by rw [hholder, hj], ?_⟩
    rw [hkeep, he]
    · rintro rfl
      exact (hd.live j hx).2.1 hj
    · exact fun hc => (htile hc).2.1 hj

/-- **When all objects have been removed, what is left is what was there**, and a holder. -/
theorem removeAll (h : Grown s₀ objects s) :
    Grown s₀ [] (objects.foldl (fun s x => s.remove x) s) := by
  induction objects generalizing s with
  | nil => exact h
  | cons x objects ih => exact ih h.remove

end Grown

end Scene

end SpatialGrammar
