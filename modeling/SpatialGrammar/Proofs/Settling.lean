/-
SpatialGrammar/Proofs/Settling.lean

Which entities have been told of the end of a run.

An entity is entered as one that has not been told, and of all that is done to a scene only the
telling changes that.  So whatever a run does before it ends is quiet (`Scene.Quiet`): it leads to
no entity that has been told but those that had been told before.  At the end exactly those are
told that wait then (`Scene.settled_foldl_settle`), and these have been made by the run
(`Awaiting.mem_pending_hearAll`).
-/
import SpatialGrammar.Proofs.ScenePlaces
import SpatialGrammar.Proofs.Transcript

namespace SpatialGrammar

variable {α ρ : Type}

namespace Scene

/-- A live entity has been told of the end of its run. -/
def Settled (s : Scene α) (id : EntityId) : Prop := ∃ e, s.get? id = some e ∧ e.settled = true

/-- What leads from `s` to `t` tells no entity of the end. -/
def Quiet (s t : Scene α) : Prop := ∀ id, t.Settled id → s.Settled id

variable {s t u : Scene α} {id x : EntityId}

/-! ### Quiet changes -/

namespace Quiet

theorem refl (s : Scene α) : s.Quiet s := fun _ h => h

theorem trans (h : s.Quiet t) (h' : t.Quiet u) : s.Quiet u := fun id hid => h id (h' id hid)

/-- A change of each entity on its own. -/
theorem map {f : EntityId → Entity α → Entity α} (hget : ∀ id, t.get? id = (s.get? id).map (f id))
    (hf : ∀ id e, (f id e).settled = e.settled) : s.Quiet t := by
  rintro id ⟨e', he', hsettled⟩
  rw [hget] at he'
  obtain ⟨e, he, rfl⟩ := Option.map_eq_some_iff.mp he'
  exact ⟨e, he, hf id e ▸ hsettled⟩

theorem modify (s : Scene α) (x : EntityId) {f : Entity α → Entity α}
    (hf : ∀ e, (f e).settled = e.settled) : s.Quiet (s.modify x f) := by
  refine map (f := fun id e => if id = x then f e else e) (fun id => ?_) fun id e => ?_
  · rw [get?_modify]
    split
    · rfl
    · simp
  · split
    · exact hf e
    · rfl

theorem setPose (s : Scene α) (x : EntityId) (pose : Transform α) : s.Quiet (s.setPose x pose) :=
  modify s x fun _ => rfl

theorem attach (s : Scene α) (child parent : EntityId) : s.Quiet (s.attach child parent) :=
  map (get?_attach s child parent) fun _ _ => rfl

theorem detach (s : Scene α) (child : EntityId) : s.Quiet (s.detach child) :=
  map (get?_detach s child) fun _ _ => rfl

theorem erase (s : Scene α) (x : EntityId) : s.Quiet (s.erase x) := by
  rintro id ⟨e, he, hsettled⟩
  rw [get?_erase] at he
  split at he
  · cases he
  · exact ⟨e, he, hsettled⟩

theorem clear (depth : Nat) (x : EntityId) (s : Scene α) : s.Quiet (clear depth x s) := by
  -- on the depth: each child is cleared one level less deep
  induction depth generalizing x s with
  | zero => exact refl s
  | succ depth ih =>
    unfold Scene.clear
    split
    · exact refl s
    · exact List.foldlRecOn (motive := fun t => s.Quiet t) _ _ (erase s x) fun t ht c _ =>
        ht.trans (ih c t)

theorem remove (s : Scene α) (x : EntityId) : s.Quiet (s.remove x) :=
  (detach s x).trans (clear _ _ _)

/-- What is entered has not been told. -/
theorem insert (s : Scene α) {e : Entity α} (he : e.settled = false) : s.Quiet (s.insert e).2 := by
  rintro id ⟨e', he', hsettled⟩
  rw [get?_insert] at he'
  split at he'
  · obtain rfl := Option.some.inj he'
    rw [he] at hsettled
    cases hsettled
  · exact ⟨e', he', hsettled⟩

theorem insertUnder (s : Scene α) {e : Entity α} (he : e.settled = false) (parent : EntityId) :
    s.Quiet (s.insertUnder e parent).2 :=
  (insert s he).trans (attach _ _ parent)

variable [Scalar α]

theorem insertTiles (names : Array String) (shapes : Array (TileShape α)) (generator : EntityId)
    (ts : List (ChainTile α)) (s : Scene α) :
    s.Quiet (insertTiles names shapes generator ts s).2 := by
  induction ts generalizing s with
  | nil => exact refl s
  | cons t ts ih =>
    unfold Scene.insertTiles
    split
    · exact (insertUnder s rfl generator).trans (ih _)
    · exact ih s

theorem fillGenerator [RandomSource ρ α] (x : EntityId) (g : GeneratorPrefab) (s : Scene α)
    (source : ρ) : s.Quiet (fillGenerator x g s source).1 := by
  unfold Scene.fillGenerator
  split
  · exact refl s
  · split
    · exact refl s
    · exact (insertTiles _ _ x _ s).trans (modify _ x fun _ => rfl)

theorem ensureHolder (s : Scene α) (name : String) : s.Quiet (s.ensureHolder name).2 := by
  unfold Scene.ensureHolder
  split
  · exact refl s
  · exact insert s rfl

theorem spawn [RandomSource ρ α] (request : SpawnRequest) (s : Scene α) (source : ρ) :
    s.Quiet (s.spawn request source).2.1 := by
  have hholder := ensureHolder s request.name
  unfold Scene.spawn
  dsimp only
  split
  · exact hholder.trans (insertUnder _ rfl _)
  · split
    · exact hholder.trans (insertUnder _ rfl _)
    · exact hholder.trans (insertUnder _ rfl _)
    · exact (hholder.trans (insertUnder _ rfl _)).trans (fillGenerator _ _ _ _)

theorem setParent (s : Scene α) (child parent : EntityId) (keepWorld : Bool) :
    s.Quiet (s.setParent child parent keepWorld).2 := by
  have hattached := (detach s child).trans (attach (s.detach child) child parent)
  rcases s.setParent_cases child parent keepWorld with heq | ⟨-, -, -, heq | ⟨pose, heq⟩⟩ <;>
    rw [heq]
  · exact refl s
  · exact hattached
  · exact hattached.trans (setPose _ child pose)

theorem dispatch [Numeral α] (s : Scene α) (x : EntityId) (call : MethodCall) :
    s.Quiet (s.dispatch x call).2 := by
  rcases s.dispatch_cases x call with heq | ⟨pose, heq⟩ | ⟨parent, keep, -, heq⟩ <;> rw [heq]
  · exact refl s
  · exact setPose s x pose
  · exact setParent s x parent keep

end Quiet

variable [Scalar α] [Numeral α] [RandomSource ρ α]

/-- **A pass is quiet**, -/
theorem Quiet.pass {r : Run α (Scene α)} (s : RunState (Scene α) ρ) :
    s.world.Quiet (r.pass s).state.world :=
  Run.pass_keeps (P := s.world.Quiet) (fun request w source hw => hw.trans (spawn request w source))
    (fun x call w hw => hw.trans (dispatch w x call)) (.refl _)

/-- and so is taking it back. -/
theorem Quiet.abandon (s : RunState (Scene α) ρ) : s.world.Quiet s.abandon.world :=
  RunState.abandon_keeps (P := s.world.Quiet) (fun x w hw => hw.trans (remove w x)) (.refl _)

/-! ### The end of a run -/

omit [Scalar α] [Numeral α] in
/-- What is found when some entities have been told. -/
theorem get?_foldl_settle (s : Scene α) (xs : List EntityId) (id : EntityId) :
    (xs.foldl settle s).get? id =
      (s.get? id).map fun e => { e with settled := if id ∈ xs then true else e.settled } := by
  induction xs generalizing s with
  | nil => simp
  | cons x xs ih =>
    rw [List.foldl_cons, ih, get?_settle, Option.map_map]
    refine congrArg (Option.map · (s.get? id)) (funext fun e => ?_)
    by_cases hx : id = x <;> by_cases hxs : id ∈ xs <;> simp [hx, hxs]

omit [Scalar α] [Numeral α] in
/-- **Exactly those have been told who had been before and who have been told now.** -/
theorem settled_foldl_settle (s : Scene α) (xs : List EntityId) (id : EntityId) :
    (xs.foldl settle s).Settled id ↔ s.Settled id ∨ id ∈ xs ∧ ∃ e, s.get? id = some e := by
  unfold Settled
  rw [get?_foldl_settle]
  rcases s.get? id with - | e
  · simp
  · by_cases hxs : id ∈ xs <;> simp [hxs]

end Scene

/-! ### Who waits -/

/-- Whoever waits has waited before or has been made since. -/
theorem Awaiting.mem_pending_hearAll {a : Awaiting} {calls : List Call} {e : EntityId}
    (h : e ∈ (a.hearAll calls).pending) : e ∈ a.pending ∨ e ∈ Call.spawned calls := by
  induction calls generalizing a with
  | nil => exact .inl h
  | cons c calls ih =>
    rcases ih h with hmem | hmem
    · -- it has waited after the first request, and only a spawning makes anyone begin to wait
      cases c with
      | spawn x request =>
        have hsub : e ∈ (a.subscribe x).pending := hmem
        unfold subscribe at hsub
        split at hsub
        · exact .inl hsub
        · rcases List.mem_append.mp hsub with hsub | hsub
          · exact .inl hsub
          · exact .inr (List.mem_singleton.mp hsub ▸ List.mem_cons_self)
      | method x call found => exact .inl hmem
      | check x bad => exact .inl hmem
      | discard x => exact .inl (List.mem_filter.mp hmem).1
      | settle x => exact .inl hmem
    · have hcons : Call.spawned (c :: calls) = Call.spawned [c] ++ Call.spawned calls :=
        Call.spawned_append [c] calls
      rw [hcons]
      exact .inr (List.mem_append_right _ hmem)

end SpatialGrammar
