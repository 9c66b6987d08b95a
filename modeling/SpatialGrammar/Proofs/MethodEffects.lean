/-
SpatialGrammar/Proofs/MethodEffects.lean

What a method can do to a scene.

Every method of an entity does one of three things: nothing, or it gives the entity another pose
(`Scene.Moved`), or it hangs the entity below another one (`Scene.Reparented`).  So of the other
entities none is touched but the two parents, and of these only the lists of children
(`Scene.Forest.dispatch_effect`).

`Method.Readable` says of a text, part by part, what a method wants of its arguments; where it is
not so, nothing is done.
-/
import SpatialGrammar.Proofs.Reparenting
import SpatialGrammar.Proofs.SceneHandles

namespace SpatialGrammar

variable {α : Type}

/-! ### Methods and their arguments -/

namespace Method

theorem name_injective : Function.Injective Method.name := by
  intro m m' h
  cases m <;> cases m' <;> first | rfl | exact absurd h (by decide)

/-- Every kind of entity has all methods but `Place`, which tiles alone have. -/
theorem mem_ofKind {kind : EntityKind α} {m : Method} :
    m ∈ ofKind kind ↔ (m = place → ∃ shape, kind = .tile shape) := by
  cases kind <;> cases m <;> simp [ofKind, shared]

/-- A text that the method can read as its arguments. -/
def Readable (α : Type) [Numeral α] (args : List Char) : Method → Prop
  -- two faces
  | place => ∃ first second rest f g, Arguments.split args = first :: second :: rest ∧
      Face.read first = .ok f ∧ Face.read second = .ok g
  -- three numbers
  | setPos | setRot | move => ∃ first second third rest, ∃ x y z : α,
      Arguments.split args = first :: second :: third :: rest ∧
      Numeral.read? first = some x ∧ Numeral.read? second = some y ∧ Numeral.read? third = some z
  -- a flag, for which any part will do, and a depth, which may be missing
  | setParent => ∃ keep rest, Arguments.split args = keep :: rest ∧
      ∀ part ∈ rest.head?, ∃ depth, Arguments.depth? part = some depth

theorem vec3?_eq_none [Numeral α] {args : List Char} (h : ¬ Readable α args setPos) :
    Arguments.vec3? (α := α) args = none := by
  refine Option.eq_none_iff_forall_ne_some.mpr fun v hv => h ?_
  unfold Arguments.vec3? at hv
  split at hv
  · next first second third rest hsplit =>
    obtain ⟨x, hx, hv⟩ := Option.bind_eq_some_iff.mp hv
    obtain ⟨y, hy, hv⟩ := Option.bind_eq_some_iff.mp hv
    obtain ⟨z, hz, -⟩ := Option.bind_eq_some_iff.mp hv
    exact ⟨first, second, third, rest, x, y, z, hsplit, hx, hy, hz⟩
  · cases hv

/-- **A method does nothing with arguments that it cannot read.** -/
theorem run_of_not_readable [Scalar α] [Numeral α] {m : Method} {call : MethodCall}
    (h : ¬ m.Readable α call.args.toList) (id : EntityId) (s : Scene α) : m.run id call s = s := by
  cases m with
  | place =>
    unfold run runPlace
    dsimp only
    split
    · next first second rest hsplit =>
      split
      · next f g _ _ hf hg _ _ => exact absurd ⟨first, second, rest, f, g, hsplit, hf, hg⟩ h
      · rfl
    · rfl
  | setPos =>
    unfold run runSetPos
    rw [vec3?_eq_none h]
  | setRot =>
    unfold run runSetRot
    rw [vec3?_eq_none h]
  | setParent =>
    show runSetParent id call s = s
    unfold runSetParent
    split
    · rfl
    · next keep rest hsplit =>
      -- were there no depth to read, the first producer would be meant
      have hdepth : depthArgument? rest = none := by
        cases rest with
        | nil => exact absurd ⟨keep, [], hsplit, fun _ hpart => by cases hpart⟩ h
        | cons part rest =>
          refine Option.eq_none_iff_forall_ne_some.mpr fun depth hread => h ?_
          refine ⟨keep, part :: rest, hsplit, ?_⟩
          rintro _ ⟨⟩
          exact ⟨depth, hread⟩
      rw [hdepth]
      rfl
  | move =>
    unfold run runMove
    rw [vec3?_eq_none h]

end Method

namespace Scene

variable [Scalar α] {s t : Scene α} {id parent : EntityId} {keepWorld : Bool}

/-! ### Moving and reparenting -/

omit [Scalar α] in
/-- In `t` the entity stands somewhere else in its frame than in `s`; nothing else is different. -/
def Moved (s : Scene α) (id : EntityId) (t : Scene α) : Prop :=
  ∃ pose, ∀ a, t.get? a = (s.get? a).map fun e => { e with pose := if a = id then pose else e.pose }

/-- In `t` the entity hangs below another one than in `s`. -/
structure Reparented (s : Scene α) (id parent : EntityId) (keepWorld : Bool) (t : Scene α) :
    Prop where
  /-- It has another parent, and another pose if it shall stay where it stands in the world. -/
  target : t.get? id = (s.get? id).map fun e => { e with
    parent := some parent
    pose := if keepWorld then
        ((s.world? parent).getD .identity).inverse.compose ((s.world? id).getD .identity)
      else e.pose }
  /-- It has left the list of its former parent and stands at the end of that of the new one. -/
  others : ∀ a, a ≠ id → t.get? a = (s.get? a).map fun e => { e with
    children := (if (s.get? id).bind Entity.parent = some a then e.children.filter (· ≠ id)
      else e.children) ++ if a = parent then [id] else [] }

omit [Scalar α] in
/-- The entity can be hung below the other one. -/
def Admits (s : Scene α) (id parent : EntityId) : Prop :=
  (∃ e, s.get? parent = some e) ∧ ¬ s.Beneath parent id

/-- Reparenting a live entity is done where it can be. -/
theorem Forest.setParent_iff (hs : s.Forest) (hlive : ∃ e, s.get? id = some e) (parent : EntityId)
    (keepWorld : Bool) : (s.setParent id parent keepWorld).1 = true ↔ s.Admits id parent := by
  obtain ⟨e, he⟩ := hlive
  rw [← Bool.not_eq_false, (hs.setParent_refused id parent keepWorld).1, Admits,
    ← Option.ne_none_iff_exists']
  simp [he]

/-- **Reparenting, where it is done, touches the entity and its two parents only.** -/
theorem Forest.setParent_reparented (hs : s.Forest)
    (h : (s.setParent id parent keepWorld).1 = true) :
    Reparented s id parent keepWorld (s.setParent id parent keepWorld).2 := by
  obtain ⟨⟨e, he⟩, -, hdone⟩ := setParent_done h
  have hnot : ¬ s.Beneath parent id := ((hs.setParent_iff ⟨e, he⟩ parent keepWorld).mp h).2
  have hparent : id ≠ parent := fun heq => hnot (heq ▸ .refl)
  have hformer : (s.get? id).bind Entity.parent ≠ some id :=
    fun hself => hs.acyclic id (.single (hs.hangs_iff.mpr hself))
  have hhung : ((s.detach id).attach id parent).get? id =
      some { e with parent := some parent } := by
    rw [he] at hformer
    have hroot : e.parent ≠ some id := hformer
    rw [get?_attach, get?_detach, he]
    simp [hparent, hroot]
  have hothers (a : EntityId) (ha : a ≠ id) : ((s.detach id).attach id parent).get? a =
      (s.get? a).map fun e => { e with
        children := (if (s.get? id).bind Entity.parent = some a then e.children.filter (· ≠ id)
          else e.children) ++ if a = parent then [id] else [] } := by
    rw [get?_attach, get?_detach, Option.map_map]
    simp [Function.comp_def, ha]
  rw [hdone]
  cases keepWorld with
  | false =>
    refine ⟨?_, hothers⟩
    rw [if_neg Bool.false_ne_true, hhung, he]
    rfl
  | true =>
    -- the new frame is the new parent, which stands where it stood
    have hframe : ((s.detach id).attach id parent).frame id = (s.world? parent).getD .identity := by
      have hup := hs.world?_congr (hs.reparent h) (fun _ => footing_reparent)
        fun hbelow => absurd hbelow hnot
      rw [frame, hhung]
      exact congrArg (Option.getD · Transform.identity) hup
    rw [if_pos rfl]
    unfold setWorld
    rw [hframe]
    constructor
    · rw [get?_setPose, hhung, he]
      simp
    · intro a ha
      rw [get?_setPose, hothers a ha, Option.map_map]
      simp [Function.comp_def, ha]

/-! ### Calling a method -/

variable [Numeral α]

/-- What came of calling a method of an entity in `s`: whether it was found, and the scene `t`. -/
structure Effect (s : Scene α) (id : EntityId) (call : MethodCall) (found : Bool) (t : Scene α) :
    Prop where
  /-- Found are the methods of the entity, if it is live: `Place` for tiles, the others for all. -/
  found_iff : found = true ↔ ∃ e, ∃ m : Method, s.get? id = some e ∧ m.name = call.name ∧
    (m = .place → ∃ shape, e.kind = .tile shape)
  /-- Nothing is done, or the entity is moved, or it is hung below a producer. -/
  done : t = s ∨ Moved s id t ∨
    ∃ parent keepWorld, some parent ∈ call.lineage ∧ Reparented s id parent keepWorld t
  /-- The scene differs in its entities only, and as many places have been given out. -/
  rest : t = { s with entities := t.entities } ∧ t.entities.size = s.entities.size
  /-- A method that is not found does nothing. -/
  not_found : found = false → t = s
  /-- One whose arguments cannot be read does nothing either. -/
  not_readable : ∀ m : Method, m.name = call.name → ¬ m.Readable α call.args.toList → t = s

omit [Scalar α] [Numeral α] in
theorem method?_isSome_iff {name : String} : (s.method? id name).isSome ↔
    ∃ e, ∃ m : Method, s.get? id = some e ∧ m.name = name ∧
      (m = .place → ∃ shape, e.kind = .tile shape) := by
  unfold method?
  rcases s.get? id with - | e
  · simp
  · simp [List.find?_isSome, Method.mem_ofKind, and_comm]

/-- **A method touches its entity only.** -/
theorem Forest.dispatch_effect (hs : s.Forest) (id : EntityId) (call : MethodCall) :
    Effect s id call (s.dispatch id call).1 (s.dispatch id call).2 := by
  have hfound : (s.dispatch id call).1 = (s.method? id call.name).isSome := by
    unfold Scene.dispatch
    cases s.method? id call.name <;> rfl
  refine ⟨?_, ?_, ⟨s.dispatch_rest id call, s.size_dispatch id call⟩, ?_, ?_⟩
  · rw [hfound]
    exact method?_isSome_iff
  · rcases s.dispatch_cases id call with heq | ⟨pose, heq⟩ | ⟨parent, keepWorld, hmem, heq⟩
    · exact .inl heq
    · refine .inr (.inl ⟨pose, fun a => ?_⟩)
      rw [heq, get?_setPose]
    · rw [heq]
      cases hdone : (s.setParent id parent keepWorld).1 with
      | false => exact .inl ((hs.setParent_refused id parent keepWorld).2 hdone)
      | true => exact .inr (.inr ⟨parent, keepWorld, hmem, hs.setParent_reparented hdone⟩)
  · intro hnone
    rw [hfound, Option.isSome_eq_false_iff, Option.isNone_iff_eq_none] at hnone
    rw [Scene.dispatch, hnone]
  · intro m hname hnot
    unfold Scene.dispatch
    split
    · rfl
    · next m' hm' =>
      obtain ⟨e, -, hfind⟩ := Option.bind_eq_some_iff.mp hm'
      have hname' : m'.name = call.name := by simpa using List.find?_some hfind
      obtain rfl := Method.name_injective (hname'.trans hname.symm)
      exact Method.run_of_not_readable hnot id s

/-- An object that hangs below another one is hung below the holder, to which its lineage leads
through a rule; it is no tile, and two numbers are no place to go to. -/
theorem dispatch_effect_rearranged : rearranged.Forest ∧
    Effect rearranged 2 ⟨"SetParent", "T,r", [none, some 0], none⟩
      (rearranged.dispatch 2 ⟨"SetParent", "T,r", [none, some 0], none⟩).1
      (rearranged.dispatch 2 ⟨"SetParent", "T,r", [none, some 0], none⟩).2 ∧
    (rearranged.dispatch 2 ⟨"SetParent", "T,r", [none, some 0], none⟩).2.get? 2 ≠
      rearranged.get? 2 ∧
    ((rearranged.dispatch 2 ⟨"SetParent", "T,r", [none, some 0], none⟩).2.get? 0).map
      Entity.children = some [1, 2] ∧
    (rearranged.dispatch 2 ⟨"Place", "y+,y-", [some 1], some 1⟩).2 = rearranged ∧
    (rearranged.dispatch 2 ⟨"SetPos", "1,2", [some 1], some 1⟩).2 = rearranged := by
  have hforest : rearranged.Forest := Reachable.forest
    ((((((Reachable.empty ..).beginRun.spawn ..).spawn ..).spawn ..).setParent ..).remove
      ..).finishRun
  have hnot : ¬ Method.setPos.Readable Float32 "1,2".toList := by
    rintro ⟨_, _, _, _, _, _, _, hsplit, -⟩
    have hparts : Arguments.split "1,2".toList = [['1'], ['2']] := by decide
    rw [hparts] at hsplit
    cases hsplit
  refine ⟨hforest, hforest.dispatch_effect 2 _, ?_, ?_, ?_, ?_⟩
  · decide +kernel
  · decide +kernel
  · exact (hforest.dispatch_effect 2 ⟨"Place", "y+,y-", [some 1], some 1⟩).not_found
      (by decide +kernel)
  · exact (hforest.dispatch_effect 2 ⟨"SetPos", "1,2", [some 1], some 1⟩).not_readable .setPos
      rfl hnot

end Scene

end SpatialGrammar
