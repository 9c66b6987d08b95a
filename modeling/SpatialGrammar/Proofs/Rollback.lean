/-
SpatialGrammar/Proofs/Rollback.lean

A pass that failed leaves nothing behind.

During a pass an object may be hung below the entity of an older producer, and a generator
comes with tiles of its own; rolling back removes the objects only.  That this is enough
rests on who can become a child of whom, which is `Scene.Grown`.  A pass keeps it
(`PassGrowth`) because the producers above an object of the current sentence belong to
earlier sentences, whose entities were made before the pass began (`RunState.Sited`).
-/
import SpatialGrammar.Decimal.Layout
import SpatialGrammar.Proofs.Lineage
import SpatialGrammar.Proofs.SceneGrowth
import SpatialGrammar.Random.Replay

namespace SpatialGrammar

variable {α ρ : Type} [Scalar α] [Numeral α] [RandomSource ρ α]

/-! ### The entities of the symbols -/

/-- The entities of all symbols have places, none of them before `lo`. -/
structure RunState.Sited (lo : Nat) (s : RunState (Scene α) ρ) : Prop where
  size_le : lo ≤ s.world.entities.size
  grounded : s.world.Grounded
  made : ∀ id e, (s.arena.get id).entity = some e → lo ≤ e ∧ e < s.world.entities.size

namespace RunState.Sited

variable {r : Run α (Scene α)} {lo : Nat} {s : RunState (Scene α) ρ}

omit [Scalar α] [Numeral α] [RandomSource ρ α] in
theorem congr {t : RunState (Scene α) ρ} (h : s.Sited lo) (hworld : t.world = s.world)
    (harena : ∀ id, (t.arena.get id).entity = (s.arena.get id).entity) : t.Sited lo :=
  ⟨by rw [hworld]; exact h.size_le, by rw [hworld]; exact h.grounded, fun id e he => by
    rw [hworld]; exact h.made id e (harena id ▸ he)⟩

theorem expand (h : s.Sited lo) (id : SymbolId) (excluded : List Nat) (next : Sentence) :
    (r.expand id excluded next s).2.Sited lo := by
  obtain ⟨_, _, _, hf⟩ := r.expand_frame id excluded next s
  exact h.congr (by rw [hf]) (r.expand_entity id excluded next s)

theorem dispatch (h : s.Sited lo) (id : SymbolId) (target : Option SymbolId) :
    (s.dispatch id target).Sited lo := by
  rcases s.dispatch_cases id target with ⟨_, heq⟩ | ⟨_, e, call, _, _, _, -, -, -, hp, heq⟩ <;>
    rw [heq]
  · exact h.congr rfl fun _ => rfl
  · obtain ⟨-, rfl⟩ := Prod.mk.inj hp
    refine ⟨?_, h.grounded.dispatch e call, fun j x hx => ?_⟩
    · exact Nat.le_trans h.size_le (Nat.le_of_eq (Scene.size_dispatch ..).symm)
    · obtain ⟨hle, hlt⟩ := h.made j x hx
      exact ⟨hle, Nat.lt_of_lt_of_eq hlt (Scene.size_dispatch ..).symm⟩

theorem spawn (h : s.Sited lo) (id : SymbolId) : (s.spawn id).Sited lo := by
  let request : SpawnRequest := ⟨(s.arena.get id).name, (s.arena.get id).args⟩
  obtain ⟨hle, hlt⟩ := s.world.spawn_lt_size request s.source
  have hsize := Nat.le_of_lt (Nat.lt_of_le_of_lt hle hlt)
  refine ⟨Nat.le_trans h.size_le hsize, h.grounded.spawn request s.source, ?_⟩
  intro j e he
  rcases Arena.entity_setEntity he with ⟨-, rfl⟩ | ⟨-, he⟩
  · exact ⟨Nat.le_trans h.size_le hle, hlt⟩
  · obtain ⟨hlo, hhi⟩ := h.made j e he
    exact ⟨hlo, Nat.lt_of_lt_of_le hhi hsize⟩

omit [Scalar α] [Numeral α] [RandomSource ρ α] in
theorem check (h : s.Sited lo) (waiting : Option SymbolId) : (r.check waiting s).2.Sited lo := by
  rcases r.check_cases waiting s with ⟨-, heq⟩ | ⟨_, _, -, -, -, heq⟩ | ⟨_, _, -, -, -, heq⟩ <;>
    rw [heq]
  · exact h
  · exact h.congr rfl fun _ => rfl
  · exact h.congr rfl fun _ => rfl

theorem passInvariant : PassInvariant r fun _ _ _ (s : RunState (Scene α) ρ) => s.Sited lo where
  method _ h := h.dispatch _ _
  invalid _ h := h
  check _ h := h.check _
  rule _ h := h.expand _ _ _
  object _ h := (h.spawn _).expand _ _ _

theorem pass (h : s.Sited lo) : (r.pass s).state.Sited lo :=
  passInvariant.state (fun waiting _ ht => ht.check waiting) (h.congr rfl fun _ => rfl)

theorem abandon (h : s.Sited lo) : s.abandon.Sited lo := by
  -- removing an entity gives out no place
  obtain ⟨hgrounded, hsize⟩ : s.abandon.world.Grounded ∧
      s.abandon.world.entities.size = s.world.entities.size :=
    RunState.abandon_keeps
      (P := fun w : Scene α => w.Grounded ∧ w.entities.size = s.world.entities.size)
      (fun e w hw => ⟨hw.1.remove e, (Scene.size_remove w e).trans hw.2⟩) ⟨h.grounded, rfl⟩
  obtain ⟨_, _, _, ha⟩ := s.abandon_frame
  have harena : s.abandon.arena = s.arena := by rw [ha]
  refine ⟨by rw [hsize]; exact h.size_le, hgrounded, fun j e he => ?_⟩
  rw [harena] at he
  rw [hsize]
  exact h.made j e he

theorem retry (h : s.Sited lo) (symbol : SymbolId) : (r.retry symbol s).Sited lo := by
  obtain ⟨_, _, _, _, _, hr⟩ := r.retry_frame symbol s
  refine h.congr (by rw [hr]) fun j => ?_
  have hderive := r.derive_entity (s.blame symbol) j
  rw [RunState.blame_arena] at hderive
  exact hderive

/-- A run begins without entities. -/
theorem begin {w : Scene α} (h : w.Grounded) (source : ρ) :
    (r.begin w source).Sited w.entities.size := by
  refine ⟨Nat.le_refl _, h, fun id e he => ?_⟩
  have hread := Sentence.append_entity .empty Arena.empty (parse r.start source).1.tokens none id
  have he : ((Sentence.empty.append Arena.empty (parse r.start source).1.tokens none).2.get
    id).entity = some e := he
  rw [hread] at he
  cases he

theorem again {t : RunState (Scene α) ρ} (h : s.Sited lo) (hstep : r.step s = .again t) :
    t.Sited lo := by
  rcases Run.step_again hstep with ⟨next, s', hp, -, rfl⟩ | ⟨symbol, s', hp, rfl⟩
  · have hs' : s'.Sited lo := by simpa [hp] using h.pass (r := r)
    exact hs'.congr rfl fun _ => rfl
  · have hs' : s'.Sited lo := by simpa [hp] using h.pass (r := r)
    exact hs'.abandon.retry symbol

/-- At every pass of a run its entities are not among those that it found. -/
theorem of_reaches {w : Scene α} (hw : w.Grounded) {source : ρ}
    (h : r.Reaches (r.begin w source) s) : s.Sited w.entities.size := by
  induction h with
  | refl => exact begin hw source
  | tail _ hstep ih => exact ih.again hstep

end RunState.Sited

/-! ### The producers above an object -/

/-- Whoever is above a symbol is the producer of it or older. -/
theorem Arena.Older.le_parent {a : Arena} (h : a.Older) {fuel : Nat} {id q : SymbolId}
    (hq : q ∈ a.ancestorsWithin fuel id) : ∃ p, (a.get id).parent = some p ∧ q ≤ p := by
  induction fuel generalizing id with
  | zero => cases hq
  | succ fuel ih =>
    unfold ancestorsWithin at hq
    split at hq
    · cases hq
    · next p hp =>
      refine ⟨p, hp, ?_⟩
      rcases List.mem_cons.mp hq with rfl | hq
      · exact Nat.le_refl _
      · obtain ⟨p', hp', hle⟩ := ih hq
        exact Nat.le_trans hle (Nat.le_of_lt (h hp'))

omit [Numeral α] in
/-- The producers above an object belong to earlier sentences, so their entities were made before
the pass began. -/
theorem Layered.lineage_made {r : Run α (Scene α)} {lo : Nat} {s₀ s : RunState (Scene α) ρ}
    (h : Layered r lo s₀) {ids : List SymbolId} {next : Sentence}
    (hw : Writing.Before ρ r.rules s₀.arena s₀.current.symbols.toList (fun _ => []) ids next
      s.arena)
    {object : SymbolId} (hobject : object ∈ s₀.current.symbols.toList) {p : EntityId}
    (hp : some p ∈ s.arena.lineage object) : ∃ q, (s₀.arena.get q).entity = some p := by
  obtain ⟨-, done, -, -, hw⟩ := hw
  obtain ⟨q, hq, hentity⟩ := List.mem_map.mp hp
  obtain ⟨q', hparent, hle⟩ := (hw.older h.older).le_parent hq
  rw [hw.parent object (h.lt_size object hobject)] at hparent
  -- the producer of the object is in the sentence before, and the others above it are older still
  have hlt : q' < lo := by
    rcases h.produced with ⟨-, -, hnone⟩ | ⟨previous, -, hprod⟩
    · rw [hnone object hobject] at hparent
      cases hparent
    · obtain ⟨p', hp', hparent', -⟩ := hprod.parent object hobject
      rw [hparent] at hparent'
      obtain rfl := Option.some.inj hparent'
      exact hprod.lt q' hp'
  have hqlo : q < lo := Nat.lt_of_le_of_lt hle hlt
  have hnot : q ∉ s₀.current.symbols.toList := fun hm => Nat.not_le.mpr hqlo (h.mem q hm).1
  exact ⟨q, by rw [← hw.entity q (Nat.lt_of_lt_of_le hqlo h.lo_le) hnot]; exact hentity⟩

/-! ### Growing in a pass -/

/-- What a pass that began in `s₀` has made of the scene when `ids` are still to be read. -/
structure PassGrowth (r : Run α (Scene α)) (s₀ : RunState (Scene α) ρ) (ids : List SymbolId)
    (next : Sentence) (waiting : Option SymbolId) (s : RunState (Scene α) ρ) : Prop where
  writing : PassWriting r s₀ ids next waiting s
  grown : s₀.world.Grown s.spawnedThisPass.toList s.world
  waiting_made : ∀ object e, waiting = some object → (s.arena.get object).entity = some e →
    e ∈ s.spawnedThisPass.toList

namespace PassGrowth

variable {r : Run α (Scene α)} {lo n : Nat} {s₀ s : RunState (Scene α) ρ}

omit [Numeral α] in
theorem start (h : s₀.Sited n) :
    PassGrowth r s₀ s₀.current.symbols.toList .empty none { s₀ with spawnedThisPass := #[] } where
  writing := .start r s₀
  grown := .start h.grounded
  waiting_made := by simp

/-- **A pass keeps this**, since no method hangs an object below anything made in the pass. -/
theorem passInvariant (hl : Layered r lo s₀) (hs : s₀.Sited n) :
    PassInvariant r (PassGrowth r s₀) := by
  have hw := PassWriting.passInvariant r hl.nodup hl.lt_size
  refine ⟨?_, ?_, ?_, ?_, ?_⟩
  · -- method: the producers above the object were made before the pass
    intro id rest next waiting s hk h
    have hwriting := hw.method hk h.writing
    rcases s.dispatch_cases id waiting with ⟨_, heq⟩ |
      ⟨object, e, call, _, _, _, hobject, he, hlineage, hp, heq⟩ <;> rw [heq] at hwriting ⊢
    · exact ⟨hwriting, h.grown, h.waiting_made⟩
    · obtain ⟨-, rfl⟩ := Prod.mk.inj hp
      refine ⟨hwriting, h.grown.dispatch (h.waiting_made object e hobject he) ?_, h.waiting_made⟩
      intro p hp
      rw [hlineage] at hp
      obtain ⟨q, hq⟩ :=
        hl.lineage_made h.writing.writing (h.writing.waiting_mem object hobject) hp
      exact (hs.made q p hq).2
  · -- invalid
    intro id rest next waiting s hk h
    exact ⟨hw.invalid hk h.writing, h.grown, h.waiting_made⟩
  · -- check
    intro ids next waiting s hc h
    have hwriting := hw.check hc h.writing
    rcases r.check_cases waiting s with ⟨-, heq⟩ | ⟨_, _, -, -, -, heq⟩ | ⟨_, _, -, -, -, heq⟩ <;>
      rw [heq] at hwriting ⊢ <;> exact ⟨hwriting, h.grown, by simp⟩
  · -- rule
    intro id rest next s hk h
    have hwriting := hw.rule hk h.writing
    obtain ⟨_, _, _, hf⟩ := r.expand_frame id [] next s
    refine ⟨hwriting, ?_, by simp⟩
    rw [hf]
    exact h.grown
  · -- object
    intro id rest next s hk h
    have hwriting := hw.object hk h.writing
    let request : SpawnRequest := ⟨(s.arena.get id).name, (s.arena.get id).args⟩
    obtain ⟨_, _, _, hf⟩ := r.expand_frame id [] next (s.spawn id)
    have hspawned : (r.expand id [] next (s.spawn id)).2.spawnedThisPass.toList =
        s.spawnedThisPass.toList ++ [(s.world.spawn request s.source).1.1] := by
      rw [hf]
      exact Array.toList_push
    refine ⟨hwriting, ?_, ?_⟩
    · rw [hspawned, hf]
      exact h.grown.spawn request s.source
    · rintro _ e ⟨⟩ he
      rw [r.expand_entity] at he
      rcases Arena.entity_setEntity he with ⟨-, rfl⟩ | ⟨hne, -⟩
      · rw [hspawned]
        exact List.mem_append_right _ (List.mem_singleton_self _)
      · exact absurd rfl hne

/-- A pass that fails leaves a scene that has grown by the objects of the pass. -/
theorem of_violated {s' : RunState (Scene α) ρ} {symbol : SymbolId} (hl : Layered r lo s₀)
    (hs : s₀.Sited n) (hp : r.pass s₀ = .violated symbol s') :
    s₀.world.Grown s'.spawnedThisPass.toList s'.world := by
  have hk := (passInvariant hl hs).pass (start (r := r) hs)
  rw [hp] at hk
  obtain ⟨_, _, waiting, t, ht, hc⟩ := hk
  rcases r.check_cases waiting t with ⟨-, heq⟩ | ⟨_, _, -, -, -, heq⟩ | ⟨_, _, -, -, -, heq⟩ <;>
    rw [heq] at hc <;> cases hc
  exact ht.grown

end PassGrowth

/-- When the pass has been rolled back, all its objects have been removed. -/
theorem Run.rollBack_grown {r : Run α (Scene α)} {lo n : Nat} {s s' : RunState (Scene α) ρ}
    {symbol : SymbolId} (hl : Layered r lo s) (hs : s.Sited n)
    (hp : r.pass s = .violated symbol s') : s.world.Grown [] s'.rollBack.world := by
  have hworld : s'.rollBack.world =
      s'.spawnedThisPass.toList.foldl (fun w e => w.remove e) s'.world := by
    rw [s'.rollBack_eq]
    rfl
  rw [hworld]
  exact (PassGrowth.of_violated hl hs hp).removeAll

/-- **Rolling back restores the scene.**  Whatever was live when the pass began is live and what it
was.  Of what was made since only the holder may be left, if there was none and it was the first to
be made; nothing is below it. -/
theorem Run.rollBack_restores {r : Run α (Scene α)} {scene : Scene α} (hscene : scene.Reachable)
    {source : ρ} {s s' : RunState (Scene α) ρ} {symbol : SymbolId}
    (hr : r.Reaches (r.begin scene source) s) (hp : r.pass s = .violated symbol s') :
    (∀ id e, s.world.get? id = some e → s'.rollBack.world.get? id = some e) ∧
    ∀ id e, s.world.get? id = none → s'.rollBack.world.get? id = some e →
      id = s.world.entities.size ∧ s'.rollBack.world.holder = some id ∧
        (∀ h, s.world.holder = some h → s.world.get? h = none) ∧
        e.kind = .holder ∧ e.parent = none ∧ e.children = [] := by
  obtain ⟨lo, hl⟩ := Layered.of_reaches hr
  have hs := RunState.Sited.of_reaches hscene.grounded hr
  obtain ⟨hold, hnew⟩ := (rollBack_grown hl hs hp).restored
  refine ⟨?_, ?_⟩
  · intro id e he
    rw [hold id (Scene.lt_size he), he]
  · intro id e hnone he
    have hle : s.world.entities.size ≤ id := by
      refine Nat.le_of_not_lt fun hlt => ?_
      rw [hold id hlt, hnone] at he
      cases he
    obtain ⟨hplace, hcurrent, hkind, hroot, hchildren, hdead⟩ := hnew id e hle he
    exact ⟨hplace, hcurrent, hdead, hkind, hroot, hchildren⟩

/-- Two iterations of a grammar that hangs a row of boxes below a box and then moves it away. -/
def Run.straying : Run Float32 (Scene Float32) where
  rules := .ofList [⟨"A", [⟨1, "<o G><m SetParent(F)><m Move(9,0,0)>"⟩]⟩]
  settings := ⟨.bounded 2, false, 1⟩
  start := "<o A>"
  violates := Scene.violates (.ofOriginSize .zero ⟨4, 4, 4⟩)

/-- A scene in which `A` is a box and `G` a row of one box. -/
def Scene.straying : Scene Float32 :=
  .empty
    (.ofList [⟨"box", .tile ⟨.one, .none, .zero⟩⟩,
      ⟨"row", .generator ⟨⟨1, .xz, none, none, false, false⟩, ["box"]⟩⟩])
    (.ofList [⟨"A", ["box"]⟩, ⟨"G", ["row"]⟩]) .zero

/-- The second pass hangs the row below the box of the first one and fails; after that there is
nothing below the box. -/
theorem Run.rollBack_straying :
    ∃ (s s' : RunState (Scene Float32) Replay) (symbol : SymbolId),
      Scene.straying.Reachable ∧ straying.Reaches (straying.begin .straying ⟨#[], 0⟩) s ∧
      straying.pass s = .violated symbol s' ∧ (s'.world.get? 1).map Entity.children = some [2] ∧
      (s'.rollBack.world.get? 1).map Entity.children = some [] ∧
      (∀ id e, s.world.get? id = some e → s'.rollBack.world.get? id = some e) ∧
      ∀ id e, s.world.get? id = none → s'.rollBack.world.get? id = some e →
        id = s.world.entities.size ∧ s'.rollBack.world.holder = some id ∧
          (∀ h, s.world.holder = some h → s.world.get? h = none) ∧
          e.kind = .holder ∧ e.parent = none ∧ e.children = [] := by
  let s₀ : RunState (Scene Float32) Replay := straying.begin .straying ⟨#[], 0⟩
  let s := straying.next s₀
  have hscene : Scene.straying.Reachable := .empty ..
  have hr : straying.Reaches s₀ s := .single (step_eq_next (by decide +kernel))
  have hbefore : (s.world.get? 1).map Entity.children = some [] := by decide +kernel
  have hafter : ((straying.pass s).state.world.get? 1).map Entity.children = some [2] := by
    decide +kernel
  have hfails : (match straying.pass s with
      | .completed _ _ => false
      | .violated _ _ => true) = true := by
    decide +kernel
  rcases hp : straying.pass s with ⟨next, s'⟩ | ⟨symbol, s'⟩ <;> rw [hp] at hafter hfails
  · cases hfails
  · have hrestored := rollBack_restores hscene hr hp
    obtain ⟨e, he, hchildren⟩ := Option.map_eq_some_iff.mp hbefore
    refine ⟨s, s', symbol, hscene, hr, hp, hafter, ?_, hrestored⟩
    rw [hrestored.1 1 e he]
    exact congrArg some hchildren

end SpatialGrammar
