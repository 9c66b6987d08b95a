/-
SpatialGrammar/Proofs/Reparenting.lean

Where entities stand in the world when one of them is moved or hung elsewhere.

Of an entity only its footing matters to this: what it hangs below, and how it stands there.
Both kinds of change leave the footing of every entity but one as it was, so that an entity
that does not hang below this one stands where it stood, and one that does is carried along
with it (`Scene.Forest.world?_congr`).  The way up from an entity is the only thing that is
gone through, once in the old tree; the lists of children do not enter.

What is left is the moved entity itself.  Over the real numbers, and in a scene in which all
poses are rigid, it comes to stand exactly where it shall (`Scene.Forest.world?_setWorld`):
its frame is made of entities that are not below it, so moving it does not move its frame,
and what is undone by the frame is done again by it.
-/
import SpatialGrammar.Proofs.RigidPlacements
import SpatialGrammar.Proofs.SceneHandles

namespace SpatialGrammar

variable {α : Type}

/-- What an entity hangs below, and how it stands there. -/
def Entity.footing (e : Entity α) : Option EntityId × Transform α := (e.parent, e.pose)

namespace Scene

/-! ### Ways up and the world -/

section World

variable [Scalar α] {s t : Scene α} {id top : EntityId}

/-- Where an entity stands in the world is told from its footing and from
where its parent stands. -/
theorem Forest.world?_footing (hs : s.Forest) (id : EntityId) :
    s.world? id = ((s.get? id).map Entity.footing).map fun f =>
      match f.1 with
      | none => f.2
      | some p => ((s.world? p).getD .identity).compose f.2 := by
  rw [hs.world?_eq]
  rcases s.get? id with - | e
  · rfl
  · rcases hp : e.parent with - | p <;> simp [Entity.footing, hp]

/-- **Where all entities but one have kept their footing, an entity stands where it stood**, if it
does not hang below that one or if that one stands where it stood. -/
theorem Forest.world?_congr (hs : s.Forest) (ht : t.Forest)
    (hrest : ∀ a, a ≠ top → (t.get? a).map Entity.footing = (s.get? a).map Entity.footing)
    (htop : s.Beneath id top → t.world? top = s.world? top) : t.world? id = s.world? id := by
  -- by induction from the roots down
  induction hs.founded.apply id with
  | intro id _ ih =>
    by_cases hid : id = top
    · subst hid
      exact htop .refl
    rw [ht.world?_footing, hs.world?_footing, hrest id hid]
    rcases he : s.get? id with - | e
    · rfl
    rcases hp : e.parent with - | p
    · simp [Entity.footing, hp]
    · obtain ⟨ep, hep⟩ := hs.parent_live id e p he hp
      have hangs : s.Hangs id p := ⟨e, ep, he, hp, hep⟩
      have hup : t.world? p = s.world? p := ih p hangs fun hbelow => htop (.head hangs hbelow)
      simp [Entity.footing, hp, hup]

omit [Scalar α] in
/-- Moving an entity changes the footing of no other one. -/
theorem footing_setPose {pose : Transform α} {a : EntityId} (ha : a ≠ id) :
    ((s.setPose id pose).get? a).map Entity.footing = (s.get? a).map Entity.footing := by
  rw [get?_setPose]
  cases s.get? a <;> simp [Entity.footing, ha]

/-- The frame of an entity is not made of it. -/
theorem Forest.frame_setPose (hs : s.Forest) (id : EntityId) (pose : Transform α) :
    (s.setPose id pose).frame id = s.frame id := by
  have hparent :
      ((s.setPose id pose).get? id).bind Entity.parent = (s.get? id).bind Entity.parent := by
    rw [get?_setPose]
    cases s.get? id <;> rfl
  unfold frame
  rw [hparent]
  rcases hp : (s.get? id).bind Entity.parent with - | p
  · rfl
  · have hangs : s.Hangs id p := hs.hangs_iff.mpr hp
    have habove : ¬ s.Beneath p id := by
      intro hbelow
      exact hs.acyclic id (.head' hangs hbelow)
    show ((s.setPose id pose).world? p).getD .identity = (s.world? p).getD .identity
    rw [hs.world?_congr (hs.setPose id pose) (fun _ => footing_setPose) fun hbelow =>
      absurd hbelow habove]

end World

/-! ### Rigid scenes -/

/-- All entities stand rigidly in their frames. -/
def Rigid (s : Scene ℝ) : Prop := ∀ id e, s.get? id = some e → e.pose.IsRigid

section Rigid

variable {s t : Scene ℝ} {id : EntityId} {w : Transform ℝ}

theorem Rigid.congr (h : s.Rigid)
    (hpose : ∀ id, (t.get? id).map Entity.pose = (s.get? id).map Entity.pose) : t.Rigid := by
  intro id e he
  have hsame := hpose id
  rw [he] at hsame
  obtain ⟨e', he', heq⟩ := Option.map_eq_some_iff.mp hsame.symm
  exact heq ▸ h id e' he'

theorem Rigid.empty (catalog : PrefabCatalog ℝ) (links : LinkTable) (origin : Vec3 ℝ) :
    (empty catalog links origin).Rigid := by
  intro id e he
  simp [Scene.empty, get?] at he

theorem Rigid.insert (h : s.Rigid) {e : Entity ℝ} (he : e.pose.IsRigid) : (s.insert e).2.Rigid := by
  intro id e' he'
  rw [get?_insert] at he'
  split at he'
  · exact Option.some.inj he' ▸ he
  · exact h id e' he'

theorem Rigid.setPose (h : s.Rigid) {pose : Transform ℝ} (hpose : pose.IsRigid) (id : EntityId) :
    (s.setPose id pose).Rigid := by
  intro a e' he'
  rw [get?_setPose] at he'
  obtain ⟨e, he, rfl⟩ := Option.map_eq_some_iff.mp he'
  show (if a = id then pose else e.pose).IsRigid
  split
  · exact hpose
  · exact h a e he

/-- Entities stand rigidly in the world as well. -/
theorem Forest.isRigid_world (hs : s.Forest) (hr : s.Rigid) (hw : s.world? id = some w) :
    w.IsRigid := by
  induction hs.founded.apply id generalizing w with
  | intro id _ ih =>
    rw [hs.world?_eq] at hw
    rcases he : s.get? id with - | e
    · simp [he] at hw
    rcases hp : e.parent with - | p
    · obtain rfl : e.pose = w := by simpa [he, hp] using hw
      exact hr id e he
    · obtain ⟨ep, hep⟩ := hs.parent_live id e p he hp
      obtain rfl : ((s.world? p).getD .identity).compose e.pose = w := by
        simpa [he, hp] using hw
      refine Transform.IsRigid.compose ?_ (hr id e he)
      rcases hup : s.world? p with - | u
      · exact Transform.isRigid_identity
      · exact ih p ⟨e, ep, he, hp, hep⟩ hup

/-- So do their frames. -/
theorem Forest.isRigid_frame (hs : s.Forest) (hr : s.Rigid) (id : EntityId) :
    (s.frame id).IsRigid := by
  unfold frame
  rcases hw : ((s.get? id).bind Entity.parent).bind s.world? with - | w
  · exact Transform.isRigid_identity
  · obtain ⟨p, -, hp⟩ := Option.bind_eq_some_iff.mp hw
    exact hs.isRigid_world hr hp

/-- In a rigid scene a root stands in a frame like every other entity: it is the identity. -/
theorem Forest.world?_eq_frame (hs : s.Forest) (hr : s.Rigid) (id : EntityId) :
    s.world? id = (s.get? id).map fun e => (s.frame id).compose e.pose := by
  rw [hs.world?_eq]
  rcases he : s.get? id with - | e
  · rfl
  rcases hp : e.parent with - | p
  · simp [frame, he, hp, (hr id e he).identity_compose]
  · simp [frame, he, hp]

theorem Rigid.setWorld (hr : s.Rigid) (hs : s.Forest) (hw : w.IsRigid) (id : EntityId) :
    (s.setWorld id w).Rigid :=
  hr.setPose ((hs.isRigid_frame hr id).inverse.compose hw) id

/-- **An entity comes to stand in the world where it shall.** -/
theorem Forest.world?_setWorld (hs : s.Forest) (hr : s.Rigid) {e : Entity ℝ}
    (he : s.get? id = some e) (hw : w.IsRigid) : (s.setWorld id w).world? id = some w := by
  have hget : (s.setWorld id w).get? id =
      some { e with pose := (s.frame id).inverse.compose w } := by
    unfold setWorld
    rw [get?_setPose, he]
    simp
  have hframe : (s.setWorld id w).frame id = s.frame id := hs.frame_setPose id _
  have ht : (s.setWorld id w).Forest := hs.setPose id _
  rw [ht.world?_eq_frame (hr.setWorld hs hw id) id, hget, hframe]
  exact congrArg some ((hs.isRigid_frame hr id).compose_inverse_compose hw)

end Rigid

/-! ### Hanging an entity elsewhere -/

section Reparent

variable {s : Scene α} {child parent : EntityId}

/-- Hanging an entity elsewhere changes the footing of no other one. -/
theorem footing_reparent {a : EntityId} (ha : a ≠ child) :
    (((s.detach child).attach child parent).get? a).map Entity.footing =
      (s.get? a).map Entity.footing := by
  rw [get?_attach, get?_detach]
  cases s.get? a <;> simp [Entity.footing, ha]

/-- It changes no pose. -/
theorem pose_reparent (child parent a : EntityId) :
    (((s.detach child).attach child parent).get? a).map Entity.pose =
      (s.get? a).map Entity.pose := by
  rw [get?_attach, get?_detach]
  cases s.get? a <;> rfl

/-- What reparenting does where it is done. -/
theorem setParent_done [Scalar α] {keepWorld : Bool}
    (h : (s.setParent child parent keepWorld).1 = true) :
    (∃ e, s.get? child = some e) ∧ (∃ e, s.get? parent = some e) ∧
      (s.setParent child parent keepWorld).2 =
        if keepWorld then
          ((s.detach child).attach child parent).setWorld child ((s.world? child).getD .identity)
        else (s.detach child).attach child parent := by
  unfold setParent at h ⊢
  split at h
  · cases h
  · next hdone =>
    rw [if_neg hdone]
    simp only [Bool.or_eq_true, Bool.not_eq_true', not_or, Bool.not_eq_false, contains,
      Option.isSome_iff_exists] at hdone
    exact ⟨hdone.1.1, hdone.1.2, rfl⟩

/-- Reparenting changes the footing of no other entity, whether the pose in
the world is kept or not. -/
theorem footing_setParent [Scalar α] {keepWorld : Bool}
    (h : (s.setParent child parent keepWorld).1 = true) {a : EntityId} (ha : a ≠ child) :
    ((s.setParent child parent keepWorld).2.get? a).map Entity.footing =
      (s.get? a).map Entity.footing := by
  obtain ⟨-, -, hdone⟩ := setParent_done h
  rw [hdone]
  split
  · exact (footing_setPose ha).trans (footing_reparent ha)
  · exact footing_reparent ha

/-- Where reparenting is done, the entity hangs below its new parent. -/
theorem hangs_setParent [Scalar α] {keepWorld : Bool}
    (h : (s.setParent child parent keepWorld).1 = true) :
    (s.setParent child parent keepWorld).2.Hangs child parent := by
  obtain ⟨⟨e, he⟩, ⟨ep, hep⟩, hdone⟩ := setParent_done h
  have hattached : ((s.detach child).attach child parent).Hangs child parent := by
    refine (hangs_attach_iff ?_ ?_).mpr (.inl ⟨rfl, rfl⟩)
    · exact ⟨_, by rw [get?_detach, he]; rfl⟩
    · exact ⟨_, by rw [get?_detach, hep]; rfl⟩
  rw [hdone]
  split
  · -- moving the entity back afterwards leaves its parent alone
    refine hattached.congr fun a => ?_
    unfold setWorld
    rw [get?_setPose, Option.map_map]
    rfl
  · exact hattached

/-- Before the entity is moved back, the tree has changed and the poses have not. -/
theorem Forest.reparent [Scalar α] (hs : s.Forest) {keepWorld : Bool}
    (h : (s.setParent child parent keepWorld).1 = true) :
    ((s.detach child).attach child parent).Forest := by
  have hdropped : (s.setParent child parent false).1 = true := by
    rw [← h]
    unfold Scene.setParent
    split <;> rfl
  obtain ⟨-, -, heq⟩ := setParent_done hdropped
  rw [if_neg Bool.false_ne_true] at heq
  exact heq ▸ hs.setParent child parent false

end Reparent

/-! ### Keeping and dropping the pose in the world -/

section Poses

variable {s : Scene ℝ} {child parent : EntityId}

/-- Reparenting keeps a scene rigid. -/
theorem Rigid.setParent (hr : s.Rigid) (hs : s.Forest) (child parent : EntityId)
    (keepWorld : Bool) : (s.setParent child parent keepWorld).2.Rigid := by
  rcases h : (s.setParent child parent keepWorld).1 with - | -
  · rw [(hs.setParent_refused child parent keepWorld).2 h]
    exact hr
  · obtain ⟨-, -, hdone⟩ := setParent_done h
    have hattached : ((s.detach child).attach child parent).Rigid :=
      hr.congr (pose_reparent child parent)
    rw [hdone]
    split
    · apply hattached.setWorld (hs.reparent h)
      rcases hw : s.world? child with - | w
      · exact Transform.isRigid_identity
      · exact hs.isRigid_world hr hw
    · exact hattached

/-- The entity itself is moved back to where it stood. -/
theorem Forest.world?_setParent (hs : s.Forest) (hr : s.Rigid)
    (h : (s.setParent child parent true).1 = true) :
    (s.setParent child parent true).2.world? child = s.world? child := by
  obtain ⟨⟨e, he⟩, -, hdone⟩ := setParent_done h
  have hattached : ((s.detach child).attach child parent).Rigid :=
    hr.congr (pose_reparent child parent)
  have hlive : ∃ e', ((s.detach child).attach child parent).get? child = some e' := by
    rw [get?_attach, get?_detach, he]
    exact ⟨_, rfl⟩
  obtain ⟨e', he'⟩ := hlive
  have hw : s.world? child = some ((s.frame child).compose e.pose) := by
    rw [hs.world?_eq_frame hr, he]
    rfl
  rw [hdone, hw]
  exact (hs.reparent h).world?_setWorld hattached he' (hs.isRigid_world hr hw)

/-- **Moving an entity to a place in the world brings it there, and reparenting keeps its place in
the world or its pose in its frame, as asked.**  Neither moves anything that does not hang below the
entity, and both keep the scene rigid. -/
theorem Forest.keeps_or_drops (hs : s.Forest) (hr : s.Rigid) :
    (∀ id w, w.IsRigid →
      ((∃ e, s.get? id = some e) → (s.setWorld id w).world? id = some w) ∧
      (∀ a, a ≠ id → (s.setWorld id w).get? a = s.get? a) ∧
      (∀ a, ¬ s.Beneath a id → (s.setWorld id w).world? a = s.world? a) ∧
      (s.setWorld id w).Rigid) ∧
    ∀ child parent keepWorld, (s.setParent child parent keepWorld).1 = true →
      (s.setParent child parent keepWorld).2.Hangs child parent ∧
      (keepWorld = true → ∀ a, s.Beneath a child →
        (s.setParent child parent keepWorld).2.world? a = s.world? a) ∧
      (keepWorld = false → ∀ a, ((s.setParent child parent keepWorld).2.get? a).map Entity.pose =
        (s.get? a).map Entity.pose) ∧
      (∀ a, ¬ s.Beneath a child →
        (s.setParent child parent keepWorld).2.world? a = s.world? a) ∧
      (s.setParent child parent keepWorld).2.Rigid := by
  constructor
  · intro id w hw
    refine ⟨?_, ?_, ?_, hr.setWorld hs hw id⟩
    · rintro ⟨e, he⟩
      exact hs.world?_setWorld hr he hw
    · intro a ha
      unfold setWorld
      rw [get?_setPose]
      cases s.get? a <;> simp [ha]
    · intro a ha
      apply hs.world?_congr (hs.setPose id _) fun _ => footing_setPose
      exact fun hbelow => absurd hbelow ha
  · intro child parent keepWorld h
    have ht : (s.setParent child parent keepWorld).2.Forest := hs.setParent child parent keepWorld
    refine ⟨hangs_setParent h, ?_, ?_, ?_, hr.setParent hs child parent keepWorld⟩
    · rintro rfl a -
      apply hs.world?_congr ht fun _ => footing_setParent h
      exact fun _ => hs.world?_setParent hr h
    · rintro rfl a
      obtain ⟨-, -, hdone⟩ := setParent_done h
      rw [hdone]
      exact pose_reparent child parent a
    · intro a ha
      apply hs.world?_congr ht fun _ => footing_setParent h
      exact fun hbelow => absurd hbelow ha

end Poses

/-- An entity that is turned by a quarter. -/
noncomputable def quarterTurned (position : Vec3 ℝ) : Entity ℝ :=
  { Entity.new "A" none .marker with pose := ⟨position, .ofYaw 90, .one⟩ }

/-- Two such entities side by side, of which the second one carries a third. -/
noncomputable def sideBySide : Scene ℝ :=
  let s := (insert (.empty (.ofList []) (.ofList []) ⟨0, 0, 0⟩) (quarterTurned ⟨0, 1, 0⟩)).2
  let s := (s.insert (quarterTurned ⟨1, 0, 0⟩)).2
  let s := (s.insert (quarterTurned ⟨0, 0, 1⟩)).2
  (s.setParent 2 1 false).2

/-- The third one can be moved anywhere.  It stays where it is when the second one is hung below the
first with its place in the world, and otherwise the second one goes on standing in its frame as it
did. -/
theorem keeps_or_drops_sideBySide : sideBySide.Forest ∧ sideBySide.Rigid ∧
    (sideBySide.setWorld 2 ⟨⟨7, 0, 0⟩, .ofYaw 90, .one⟩).world? 2 =
      some ⟨⟨7, 0, 0⟩, .ofYaw 90, .one⟩ ∧
    (sideBySide.setParent 1 0 true).1 = true ∧
    (sideBySide.setParent 1 0 true).2.world? 2 = sideBySide.world? 2 ∧
    (sideBySide.setParent 1 0 false).1 = true ∧
    ((sideBySide.setParent 1 0 false).2.get? 1).map Entity.pose =
      some ⟨⟨1, 0, 0⟩, .ofYaw 90, .one⟩ := by
  have hturned : ∀ position, (quarterTurned position).pose.IsRigid :=
    fun _ => ⟨Quat.isUnit_ofYaw 90, rfl⟩
  have hthree := (((Forest.empty (.ofList []) (.ofList []) (⟨0, 0, 0⟩ : Vec3 ℝ)).insert
    (e := quarterTurned ⟨0, 1, 0⟩) rfl rfl).insert (e := quarterTurned ⟨1, 0, 0⟩) rfl rfl).insert
    (e := quarterTurned ⟨0, 0, 1⟩) rfl rfl
  have hrigid := (((Rigid.empty (.ofList []) (.ofList []) ⟨0, 0, 0⟩).insert
    (hturned ⟨0, 1, 0⟩)).insert (hturned ⟨1, 0, 0⟩)).insert (hturned ⟨0, 0, 1⟩)
  have hs : sideBySide.Forest := hthree.setParent 2 1 false
  have hr : sideBySide.Rigid := hrigid.setParent hthree 2 1 false
  obtain ⟨hmoved, hreparented⟩ := hs.keeps_or_drops hr
  have hbeneath : sideBySide.Beneath 2 1 := .single ⟨_, _, rfl, rfl, rfl⟩
  obtain ⟨-, hkept, -⟩ := hreparented 1 0 true rfl
  obtain ⟨-, -, hdropped, -⟩ := hreparented 1 0 false rfl
  refine ⟨hs, hr, ?_, rfl, hkept rfl 2 hbeneath, rfl, hdropped rfl 1⟩
  exact (hmoved 2 _ ⟨Quat.isUnit_ofYaw 90, rfl⟩).1 ⟨_, rfl⟩

end Scene

end SpatialGrammar
