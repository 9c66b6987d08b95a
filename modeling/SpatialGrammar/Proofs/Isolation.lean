/-
SpatialGrammar/Proofs/Isolation.lean

Runs leave each other alone.

All runs of a document share one scene, one source and one place for the holder.  Still each of
them makes a tree of its own: whatever it makes hangs below its holder, and whatever it has found
stays as it is, the children included (`Finished.Isolated`).  This comes from what holds between
its passes (`RunState.Secluded`), for a run that gives up as well as for one that ends well.
Since a run changes nothing that it has found, the holder of one run, which is live when the next
one begins, is never the holder of another.
-/
import SpatialGrammar.Decimal.Layout
import SpatialGrammar.Document.Execution
import SpatialGrammar.Proofs.Lifecycle
import SpatialGrammar.Proofs.RunFrames
import SpatialGrammar.Proofs.SceneHandles
import SpatialGrammar.Proofs.Settling
import SpatialGrammar.Random.Replay

namespace SpatialGrammar

variable {α ρ : Type}

/-! ### Below the holder -/

namespace Scene

variable {s t : Scene α} {lo : Nat} {id : EntityId} {e : Entity α}

/-- In a forest nothing refers to a place that has not been given out. -/
theorem Forest.grounded (hs : s.Forest) (hholder : s.holder = none) : s.Grounded := by
  refine ⟨fun id e he => ⟨fun p hp => ?_, fun c hc => ?_⟩, by simp [hholder]⟩
  · obtain ⟨ep, hep⟩ := hs.parent_live id e p he hp
    exact lt_size hep
  · exact ((hs.mem_children_iff id e c he).mp hc).lt_size.1

/-- **Whatever a run has made is below its holder.** -/
theorem Rooted.beneath_holder (hrooted : s.Rooted lo) (hheld : s.Held lo) (hs : s.Forest)
    (hle : lo ≤ id) (he : s.get? id = some e) : ∃ h, s.holder = some h ∧ s.Beneath id h := by
  -- on the handle: what an entity hangs below is older, and of the same run
  induction id using Nat.strongRecOn generalizing e with
  | ind id ih =>
    rcases hp : e.parent with - | p
    · exact ⟨id, hheld id e hle he hp, .refl⟩
    · obtain ⟨hlop, hlt⟩ := hrooted.since id e p hle he hp
      obtain ⟨ep, hep⟩ := hs.parent_live id e p he hp
      obtain ⟨h, hh, hbeneath⟩ := ih p hlt hlop hep
      exact ⟨h, hh, .head ⟨e, ep, he, hp, hep⟩ hbeneath⟩

/-- The holder itself hangs below nothing, since that would be below the holder. -/
theorem Rooted.holder_parent (hrooted : s.Rooted lo) (hheld : s.Held lo) (hs : s.Forest)
    (hholder : s.holder = some id) (he : s.get? id = some e) : e.parent = none := by
  refine Option.eq_none_iff_forall_ne_some.mpr fun p hp => ?_
  obtain ⟨hlop, -⟩ := hrooted.since id e p (hrooted.holder id hholder) he hp
  obtain ⟨ep, hep⟩ := hs.parent_live id e p he hp
  obtain ⟨h, hh, hbeneath⟩ := hrooted.beneath_holder hheld hs hlop hep
  rw [hholder] at hh
  obtain rfl := Option.some.inj hh
  exact hs.acyclic id (.head' ⟨e, ep, he, hp, hep⟩ hbeneath)

variable [Scalar α] [Numeral α] [RandomSource ρ α]

/-- A run makes of a forest another one. -/
theorem worldInvariant_forest : WorldInvariant ρ (Forest (α := α)) where
  spawn request _ source h := h.spawn request source
  perform id call _ h := h.dispatch id call
  discard id _ h := h.remove id
  settle id _ h := h.settle id

omit [Numeral α] in
/-- After an object has been spawned there is a holder. -/
theorem holder_spawn (request : SpawnRequest) (s : Scene α) (source : ρ) :
    (s.spawn request source).2.1.holder = some (s.ensureHolder request.name).1 := by
  obtain ⟨-, n, he⟩ := s.spawn_spec request source
  exact he.holder.trans (s.holder_ensureHolder request.name)

end Scene

/-! ### Passes -/

variable [Scalar α] [Numeral α] [RandomSource ρ α]

/-- There is no holder as long as nothing has been spawned, and then there is one. -/
def RunState.HolderFits (s : RunState (Scene α) ρ) : Prop :=
  s.world.holder = none ↔ Call.spawned s.calls.toList = []

namespace RunState.HolderFits

variable {r : Run α (Scene α)} {s : RunState (Scene α) ρ}

omit [Scalar α] [Numeral α] [RandomSource ρ α] in
theorem congr {t : RunState (Scene α) ρ} (h : s.HolderFits)
    (hholder : t.world.holder = s.world.holder)
    (hspawned : Call.spawned t.calls.toList = Call.spawned s.calls.toList) : t.HolderFits := by
  unfold HolderFits
  rw [hholder, hspawned]
  exact h

omit [Scalar α] [Numeral α] [RandomSource ρ α] in
theorem check (h : s.HolderFits) (waiting : Option SymbolId) :
    (r.check waiting s).2.HolderFits := by
  rcases r.check_cases waiting s with ⟨-, heq⟩ | ⟨_, e, -, -, -, heq⟩ | ⟨_, e, -, -, -, heq⟩ <;>
    rw [heq]
  · exact h
  · exact h.congr rfl (by simp [RunState.record, Call.spawned, Call.spawned?])
  · exact h.congr rfl (by simp [RunState.record, RunState.note, Call.spawned, Call.spawned?])

theorem passInvariant : PassInvariant r fun _ _ _ (s : RunState (Scene α) ρ) => s.HolderFits where
  method := by
    intro id rest next waiting s _ h
    rcases s.dispatch_cases id waiting with ⟨_, heq⟩ | ⟨_, e, call, _, _, _, -, -, -, hp, heq⟩ <;>
      rw [heq]
    · exact h
    · obtain ⟨-, rfl⟩ := Prod.mk.inj hp
      exact h.congr (Scene.holder_dispatch ..) (by simp [Call.spawned, Call.spawned?])
  invalid := fun _ h => h
  check := fun _ h => h.check _
  rule := by
    intro id rest next s _ h
    obtain ⟨_, _, _, heq⟩ := r.expand_frame id [] next s
    rw [heq]
    exact h
  object := by
    intro id rest next s _ h
    obtain ⟨_, _, _, heq⟩ := r.expand_frame id [] next (s.spawn id)
    rw [heq]
    -- from here on there is a holder, and something has been spawned
    refine iff_of_false (fun hnone => ?_) ?_
    · have hsome :=
        Scene.holder_spawn ⟨(s.arena.get id).name, (s.arena.get id).args⟩ s.world s.source
      rw [show (s.world.spawn _ s.source).2.1.holder = none from hnone] at hsome
      cases hsome
    · simp [RunState.spawn, Call.spawned, Call.spawned?]

theorem pass (h : s.HolderFits) : (r.pass s).state.HolderFits :=
  passInvariant.state (fun waiting _ ht => ht.check waiting) h

theorem abandon (h : s.HolderFits) : s.abandon.HolderFits := by
  have hholder : s.abandon.world.holder = s.world.holder :=
    RunState.abandon_keeps (P := fun w : Scene α => w.holder = s.world.holder)
      (fun e w hw => (Scene.holder_remove w e).trans hw) rfl
  refine h.congr hholder ?_
  simp [RunState.abandon, s.rollBack_eq]

end RunState.HolderFits

/-- Whoever waits after a pass has waited before it or has been made by it. -/
theorem Run.pass_pending (r : Run α (Scene α)) (s : RunState (Scene α) ρ) {x : EntityId}
    (hx : x ∈ (r.pass s).state.awaiting.pending) :
    x ∈ s.awaiting.pending ∨ x ∈ (r.pass s).state.spawnedThisPass.toList := by
  have hpass := r.passTrace_spec s
  rw [hpass.awaiting] at hx
  rw [hpass.spawned]
  exact Awaiting.mem_pending_hearAll hx

/-- Once the pass has been taken back, only those are left who have waited before. -/
theorem Run.abandon_pending {r : Run α (Scene α)} {s s' : RunState (Scene α) ρ} {symbol : SymbolId}
    (hp : r.pass s = .violated symbol s') {x : EntityId} (hx : x ∈ s'.abandon.awaiting.pending) :
    x ∈ s.awaiting.pending := by
  have hx : x ∈ (s'.spawnedThisPass.toList.foldl Awaiting.unsubscribe s'.awaiting).pending := by
    simpa [RunState.abandon, s'.rollBack_eq] using hx
  rw [Awaiting.pending_foldl_unsubscribe] at hx
  obtain ⟨hx, hnot⟩ := List.mem_filter.mp hx
  have hmade := r.pass_pending s (x := x)
  rw [hp] at hmade
  exact (hmade hx).resolve_right (of_decide_eq_true hnot)

/-! ### Between the passes of a run -/

/-- Between the passes of a run that began in `w`. -/
structure RunState.Secluded (w : Scene α) (s : RunState (Scene α) ρ) : Prop where
  framed : s.Framed w.entities.size
  old : ∀ id < w.entities.size, s.world.get? id = w.get? id
  quiet : w.Quiet s.world
  holderFits : s.HolderFits
  holder_live : ∀ h, s.world.holder = some h → ∃ e, s.world.get? h = some e
  pending : ∀ x ∈ s.awaiting.pending, w.entities.size ≤ x ∧ ∃ e, s.world.get? x = some e

namespace RunState.Secluded

variable {r : Run α (Scene α)} {layer : Nat} {w : Scene α} {s t : RunState (Scene α) ρ}

omit [Scalar α] [Numeral α] [RandomSource ρ α] in
theorem congr (h : s.Secluded w) (hworld : t.world = s.world) (hcalls : t.calls = s.calls)
    (hawaiting : t.awaiting = s.awaiting) (hsited : t.Sited w.entities.size) : t.Secluded w where
  framed := h.framed.congr hworld hsited
  old := by rw [hworld]; exact h.old
  quiet := by rw [hworld]; exact h.quiet
  holderFits := h.holderFits.congr (by rw [hworld]) (by rw [hcalls])
  holder_live := by rw [hworld]; exact h.holder_live
  pending := by rw [hworld, hawaiting]; exact h.pending

theorem begin (hw : w.Grounded) (hholder : w.holder = none) (source : ρ) :
    (r.begin w source).Secluded w where
  framed := .begin hw hholder source
  old := fun _ _ => rfl
  quiet := .refl w
  holderFits := iff_of_true hholder rfl
  holder_live := fun h hh => by
    have hh : w.holder = some h := hh
    rw [hholder] at hh
    cases hh
  pending := fun _ hx => by cases hx

omit [Scalar α] [Numeral α] [RandomSource ρ α] in
/-- What a pass makes of the scene does not concern what the run has found. -/
theorem grown {objects : List EntityId} (h : s.Secluded w) (hframed : t.Framed w.entities.size)
    (hgrown : s.world.Grown objects t.world) (hquiet : s.world.Quiet t.world)
    (hfits : t.HolderFits)
    (hpending : ∀ x ∈ t.awaiting.pending, x ∈ s.awaiting.pending ∨ x ∈ objects) :
    t.Secluded w where
  framed := hframed
  old := fun id hid =>
    (hgrown.get?_old hframed.rooted h.framed.sited.size_le hid).trans (h.old id hid)
  quiet := h.quiet.trans hquiet
  holderFits := hfits
  holder_live := fun _ hj => hgrown.exists_holder hframed.sited.grounded h.holder_live hj
  pending := by
    intro x hx
    rcases hpending x hx with hx | hx
    · -- what waited when the pass began is still live
      obtain ⟨hle, e, he⟩ := h.pending x hx
      obtain ⟨e', he', -⟩ :=
        Option.map_eq_some_iff.mp ((hgrown.old x (Scene.lt_size he)).trans he)
      exact ⟨hle, e', he'⟩
    · obtain ⟨hle, -, hlive⟩ := hgrown.live x hx
      exact ⟨Nat.le_trans h.framed.sited.size_le hle, hlive⟩

/-- A pass that is completed. -/
theorem completed {next : Sentence} {s' : RunState (Scene α) ρ} (h : s.Secluded w)
    (hl : Layered r layer s) (hp : r.pass s = .completed next s') : s'.Secluded w := by
  obtain ⟨hframed, hgrown⟩ := h.framed.completed hl hp
  have hquiet : s.world.Quiet s'.world := by simpa [hp] using Scene.Quiet.pass (r := r) s
  have hfits : s'.HolderFits := by simpa [hp] using h.holderFits.pass (r := r)
  refine h.grown hframed hgrown hquiet hfits fun x hx => ?_
  have hmade := r.pass_pending s (x := x)
  rw [hp] at hmade
  exact hmade hx

/-- A pass that fails and is taken back. -/
theorem violated {symbol : SymbolId} {s' : RunState (Scene α) ρ} (h : s.Secluded w)
    (hl : Layered r layer s) (hp : r.pass s = .violated symbol s') : s'.abandon.Secluded w := by
  obtain ⟨hframed, hgrown⟩ := h.framed.violated hl hp
  have hquiet : s.world.Quiet s'.world := by simpa [hp] using Scene.Quiet.pass (r := r) s
  have hfits : s'.HolderFits := by simpa [hp] using h.holderFits.pass (r := r)
  exact h.grown hframed hgrown (hquiet.trans (.abandon s')) hfits.abandon
    fun x hx => .inl (Run.abandon_pending hp hx)

/-- **Between its passes a run has changed nothing that it has found.** -/
theorem of_reaches (hw : w.Grounded) (hholder : w.holder = none) {source : ρ}
    (hr : r.Reaches (r.begin w source) s) : s.Secluded w := by
  induction hr with
  | refl => exact begin hw hholder source
  | tail hr hstep ih =>
    obtain ⟨layer, hl⟩ := Layered.of_reaches hr
    have hsited := ih.framed.sited.again hstep
    rcases Run.step_again hstep with ⟨next, s', hp, -, rfl⟩ | ⟨symbol, s', hp, rfl⟩
    · exact (ih.completed hl hp).congr rfl rfl rfl hsited
    · obtain ⟨_, _, _, _, _, hf⟩ := r.retry_frame symbol s'.abandon
      exact (ih.violated hl hp).congr (by rw [hf]) (by rw [hf]) (by rw [hf]) hsited

end RunState.Secluded

/-! ### The end of a run -/

/-- A run ends in the state `t` by telling whoever waits; a report lists them. -/
structure Finished.EndsIn (f : Finished (Scene α) ρ) (t : RunState (Scene α) ρ) : Prop where
  world : f.world = t.awaiting.pending.foldl Scene.settle t.world
  spawned : Call.spawned f.calls = Call.spawned t.calls.toList
  report : ∀ report, f.outcome = .ok report → report.spawned = t.awaiting.pending

theorem RunState.succeed_endsIn (termination : Termination) (t : RunState (Scene α) ρ) :
    (t.succeed termination).EndsIn t := by
  simp only [succeed, t.finish_eq]
  refine ⟨rfl, by simp, ?_⟩
  rintro report ⟨⟩
  rfl

theorem RunState.giveUp_endsIn (symbol : SymbolId) (t : RunState (Scene α) ρ) :
    (t.giveUp symbol).EndsIn t := by
  simp only [giveUp, t.finish_eq]
  refine ⟨rfl, by simp, ?_⟩
  rintro report ⟨⟩

/-- What a run that ended as `f` has made of the scene `before`, which it leaves as `after`. -/
structure Finished.Isolated (f : Finished (Scene α) ρ) (before after : Scene α) : Prop where
  /-- There is a holder if and only if something was spawned. -/
  holder_isSome_iff : f.world.holder.isSome ↔ Call.spawned f.calls ≠ []
  /-- The holder is new, and it hangs below nothing. -/
  holder_root : ∀ h, f.world.holder = some h →
    before.get? h = none ∧ ∃ e, after.get? h = some e ∧ e.parent = none
  /-- Whatever is new is below the holder. -/
  beneath : ∀ id e, before.get? id = none → after.get? id = some e →
    ∃ h, f.world.holder = some h ∧ after.Beneath id h
  /-- Whatever was there is what it was. -/
  old : ∀ id e, before.get? id = some e → after.get? id = some e
  /-- A report lists those new entities that have been told of the end, and nothing else. -/
  settled : ∀ report, f.outcome = .ok report →
    ∀ id, id ∈ report.spawned ↔ before.get? id = none ∧ after.Settled id

namespace Finished.Isolated

variable {f : Finished (Scene α) ρ} {before after w : Scene α} {x : EntityId}

omit [Scalar α] [Numeral α] [RandomSource ρ α] in
/-- Nothing that has been found is touched when those who wait are told of the end. -/
theorem of_secluded {t : RunState (Scene α) ρ} (ht : t.Secluded w) (hf : f.EndsIn t)
    (hforest : f.world.Forest) : f.Isolated w f.world := by
  -- telling those who wait moves nothing
  obtain ⟨hrooted, hheld, hholder⟩ : f.world.Rooted w.entities.size ∧
      f.world.Held w.entities.size ∧ f.world.holder = t.world.holder := by
    rw [hf.world]
    exact List.foldlRecOn (motive := fun u : Scene α => u.Rooted w.entities.size ∧
        u.Held w.entities.size ∧ u.holder = t.world.holder) _ _
      ⟨ht.framed.rooted, ht.framed.held, rfl⟩
      fun u hu x _ => ⟨hu.1.settle x, hu.2.1.settle x, hu.2.2⟩
  have hget (id : EntityId) := Scene.get?_foldl_settle t.world t.awaiting.pending id
  rw [← hf.world] at hget
  have hdead {id : EntityId} (hle : w.entities.size ≤ id) : w.get? id = none :=
    Option.eq_none_iff_forall_ne_some.mpr fun e he => Nat.not_lt.mpr hle (Scene.lt_size he)
  have hnew {id : EntityId} {e : Entity α} (hnone : w.get? id = none)
      (he : f.world.get? id = some e) : w.entities.size ≤ id := by
    refine Nat.le_of_not_lt fun hlt => ?_
    rw [hget, ht.old id hlt, hnone] at he
    cases he
  refine ⟨?_, ?_, ?_, ?_, ?_⟩
  · -- holder_isSome_iff
    rw [hholder, hf.spawned, Option.isSome_iff_ne_none]
    exact not_congr ht.holderFits
  · -- holder_root
    intro h hh
    obtain ⟨e, he⟩ := ht.holder_live h (hholder ▸ hh)
    have he' := hget h
    rw [he] at he'
    exact ⟨hdead (hrooted.holder h hh), _, he', hrooted.holder_parent hheld hforest hh he'⟩
  · -- beneath
    intro id e hnone he
    exact hrooted.beneath_holder hheld hforest (hnew hnone he) he
  · -- old: nobody waits who was there before
    intro id e he
    have hlt := Scene.lt_size he
    have hnot : id ∉ t.awaiting.pending := fun hmem =>
      Nat.not_lt.mpr (ht.pending id hmem).1 hlt
    rw [hget, ht.old id hlt, he]
    simp [hnot]
  · -- settled: before the end nobody is told
    intro report hreport id
    rw [hf.report report hreport, hf.world, Scene.settled_foldl_settle]
    constructor
    · intro hmem
      obtain ⟨hle, hlive⟩ := ht.pending id hmem
      exact ⟨hdead hle, .inr ⟨hmem, hlive⟩⟩
    · rintro ⟨hnone, htold | ⟨hmem, -⟩⟩
      · obtain ⟨e, he, -⟩ := ht.quiet id htold
        rw [hnone] at he
        cases he
      · exact hmem

/-- **What a run makes is a tree of its own.** -/
theorem of_run? {r : Run α (Scene α)} (hw : w.Forest) (hholder : w.holder = none) {fuel : Nat}
    {source : ρ} (hf : r.run? fuel w source = some f) : f.Isolated w f.world := by
  have hforest := Scene.worldInvariant_forest.run? hw hf
  obtain ⟨s, hr, hdone⟩ := Run.reaches_of_run? hf
  have hs := RunState.Secluded.of_reaches (hw.grounded hholder) hholder hr
  obtain ⟨layer, hl⟩ := Layered.of_reaches hr
  rcases Run.step_done hdone with ⟨-, rfl⟩ | ⟨next, s', -, hp, -, rfl⟩ | ⟨symbol, s', -, hp, rfl⟩
  · exact of_secluded hs (s.succeed_endsIn _) hforest
  · have hs' := hs.completed hl hp
    have hcommit : (s'.commit next).Secluded w :=
      hs'.congr rfl rfl rfl (hs'.framed.sited.congr rfl fun _ => rfl)
    exact of_secluded hcommit (RunState.succeed_endsIn _ _) hforest
  · exact of_secluded (hs.violated hl hp) (RunState.giveUp_endsIn _ _) hforest

omit [Scalar α] [Numeral α] [RandomSource ρ α] in
/-- Moving the holder changes none of this. -/
theorem setPose (h : f.Isolated before after) (hx : f.world.holder = some x)
    (pose : Transform α) : f.Isolated before (after.setPose x pose) := by
  have hget (id : EntityId) := after.get?_setPose x pose id
  have hinv {id : EntityId} {e' : Entity α} (he' : (after.setPose x pose).get? id = some e') :
      ∃ e, after.get? id = some e ∧ e'.parent = e.parent ∧ e'.settled = e.settled := by
    rw [hget] at he'
    obtain ⟨e, he, rfl⟩ := Option.map_eq_some_iff.mp he'
    exact ⟨e, he, rfl, rfl⟩
  refine ⟨h.holder_isSome_iff, ?_, ?_, ?_, ?_⟩
  · -- holder_root
    intro j hj
    obtain ⟨hnone, e, he, hroot⟩ := h.holder_root j hj
    refine ⟨hnone, { e with pose := if j = x then pose else e.pose }, ?_, hroot⟩
    rw [hget, he]
    rfl
  · -- beneath: nothing hangs below anything else than before
    intro id e' hnone he'
    obtain ⟨e, he, -, -⟩ := hinv he'
    obtain ⟨j, hj, hbeneath⟩ := h.beneath id e hnone he
    refine ⟨j, hj, hbeneath.mono fun c p => Scene.Hangs.congr fun i => ?_⟩
    rw [hget, Option.map_map]
    rfl
  · -- old: the holder is new
    intro id e he
    have hne : id ≠ x := by
      rintro rfl
      rw [(h.holder_root id hx).1] at he
      cases he
    rw [hget, h.old id e he]
    simp [hne]
  · -- settled
    intro report hreport id
    rw [h.settled report hreport]
    refine and_congr_right fun _ => ⟨?_, ?_⟩
    · rintro ⟨e, he, htold⟩
      exact ⟨_, (hget id).trans (congrArg _ he), htold⟩
    · rintro ⟨e', he', htold⟩
      obtain ⟨e, he, -, hsettled⟩ := hinv he'
      exact ⟨e, he, hsettled ▸ htold⟩

end Finished.Isolated

/-! ### Executions -/

namespace Document

variable {d : Document α} {s s' : Scene α} {source source' : ρ} {fuel : Nat}

/-- A run of the document that ends as `f`, from the scene `before` to the scene `after`, and that
touches nothing but what it makes. -/
structure IsolatedRun (d : Document α) (fuel : Nat) (before : Scene α) (source : ρ)
    (f : Finished (Scene α) ρ) (outcome : RunOutcome) (after : Scene α) (source' : ρ) : Prop where
  run : d.run.run? fuel before.beginRun source = some f
  outcome : outcome = ⟨f.world.holder, f.outcome⟩
  scatter : d.scatterHolder f.world.holder f.world.finishRun.2 f.source = (after, source')
  /-- Scattering moves the holder within its frame, and nothing else. -/
  scattered : after = f.world.finishRun.2 ∨
    ∃ h pose, f.world.holder = some h ∧ after = f.world.finishRun.2.setPose h pose
  isolated : f.Isolated before after

/-- One run, with its holder scattered. -/
theorem IsolatedRun.of_runOnce? {outcome : RunOutcome} (hs : s.Forest)
    (h : d.runOnce? fuel s source = some (outcome, s', source')) :
    s'.Forest ∧ ∃ f, d.IsolatedRun fuel s source f outcome s' source' := by
  obtain ⟨f, hf, houtcome, hscatter⟩ := exists_of_runOnce? h
  have hbegin : s.beginRun.Forest := hs.congr fun _ => rfl
  have hforest : f.world.finishRun.2.Forest :=
    (Scene.worldInvariant_forest.run? hbegin hf).congr fun _ => rfl
  have hrun := Finished.Isolated.of_run? hbegin rfl hf
  -- the holder is forgotten, which no entity takes notice of
  have hended : f.Isolated s f.world.finishRun.2 :=
    ⟨hrun.holder_isSome_iff, hrun.holder_root, hrun.beneath, hrun.old, hrun.settled⟩
  have hcases := d.scatterHolder_cases f.world.holder f.world.finishRun.2 f.source
  rw [hscatter] at hcases
  rcases hcases with rfl | ⟨j, pose, hj, rfl⟩
  · exact ⟨hforest, f, hf, houtcome, hscatter, .inl rfl, hended⟩
  · exact ⟨hforest.setPose j pose, f, hf, houtcome, hscatter, .inr ⟨j, pose, hj, rfl⟩,
      hended.setPose hj pose⟩

/-- Several runs keep the tree and whatever they have found. -/
theorem forest_of_runTimes? {n : Nat} {outcomes : List RunOutcome} (hs : s.Forest)
    (h : d.runTimes? fuel n s source = some (outcomes, s', source')) :
    s'.Forest ∧ ∀ id e, s.get? id = some e → s'.get? id = some e := by
  induction n generalizing s source outcomes with
  | zero =>
    obtain ⟨-, rfl, -⟩ : _ ∧ s = s' ∧ _ := by simpa [runTimes?] using h
    exact ⟨hs, fun _ _ he => he⟩
  | succ n ih =>
    obtain ⟨outcome, rest, t, source₁, -, ht, hrest⟩ := exists_of_runTimes?_succ h
    obtain ⟨hforest, f, hfirst⟩ := IsolatedRun.of_runOnce? hs ht
    obtain ⟨hforest', hkept⟩ := ih hforest hrest
    exact ⟨hforest', fun id e he => hkept id e (hfirst.isolated.old id e he)⟩

/-- Their holders are none of those entities, and no two of them are the same. -/
theorem holders_of_runTimes? {n : Nat} {outcomes : List RunOutcome} (hs : s.Forest)
    (h : d.runTimes? fuel n s source = some (outcomes, s', source')) :
    (∀ o ∈ outcomes, ∀ i, o.holder = some i → s.get? i = none) ∧
    outcomes.Pairwise fun o o' => ∀ i j, o.holder = some i → o'.holder = some j → i ≠ j := by
  induction n generalizing s source outcomes with
  | zero =>
    obtain ⟨rfl, -⟩ : [] = outcomes ∧ _ := by simpa [runTimes?] using h
    exact ⟨by simp, .nil⟩
  | succ n ih =>
    obtain ⟨outcome, rest, t, source₁, rfl, ht, hrest⟩ := exists_of_runTimes?_succ h
    obtain ⟨hforest, f, hfirst⟩ := IsolatedRun.of_runOnce? hs ht
    have hroot (i : EntityId) (hi : outcome.holder = some i) :=
      hfirst.isolated.holder_root i (by rw [← hi, hfirst.outcome])
    obtain ⟨hfresh, hapart⟩ := ih hforest hrest
    refine ⟨?_, List.pairwise_cons.mpr ⟨?_, hapart⟩⟩
    · -- a holder that is new later is new now
      intro o ho i hi
      rcases List.mem_cons.mp ho with rfl | ho
      · exact (hroot i hi).1
      · refine Option.eq_none_iff_forall_ne_some.mpr fun e he => ?_
        have hnone := hfresh o ho i hi
        rw [hfirst.isolated.old i e he] at hnone
        cases hnone
    · -- the first holder is live when the others are made
      rintro o ho i _ hi hj rfl
      obtain ⟨-, e, he, -⟩ := hroot i hi
      have hnone := hfresh o ho i hj
      rw [he] at hnone
      cases hnone

/-- There is an outcome for each run, and the run begins where the runs before it end. -/
theorem exists_of_getElem?_runTimes? {n : Nat} {outcomes : List RunOutcome}
    (h : d.runTimes? fuel n s source = some (outcomes, s', source')) :
    outcomes.length = n ∧ ∀ i o, outcomes[i]? = some o → ∃ before source₁ after source₂,
      d.runTimes? fuel i s source = some (outcomes.take i, before, source₁) ∧
      d.runOnce? fuel before source₁ = some (o, after, source₂) ∧
      d.runTimes? fuel (n - (i + 1)) after source₂ = some (outcomes.drop (i + 1), s', source') := by
  induction n generalizing s source outcomes with
  | zero =>
    obtain ⟨rfl, -⟩ : [] = outcomes ∧ _ := by simpa [runTimes?] using h
    exact ⟨rfl, by simp⟩
  | succ n ih =>
    obtain ⟨outcome, rest, t, source₁, rfl, ht, hrest⟩ := exists_of_runTimes?_succ h
    obtain ⟨hlength, hruns⟩ := ih hrest
    refine ⟨congrArg (· + 1) hlength, fun i o ho => ?_⟩
    rcases i with - | i
    · obtain rfl : outcome = o := by simpa using ho
      exact ⟨s, source, t, source₁, rfl, ht, hrest⟩
    · obtain ⟨before, source₂, after, source₃, hbefore, ho, hafter⟩ := hruns i o (by simpa using ho)
      refine ⟨before, source₂, after, source₃, ?_, ho, ?_⟩
      · simp [runTimes?, ht, hbefore]
      · simpa using hafter

/-- **Repeated runs are isolated.**  An execution gives an outcome for each of the repetitions, and
no two runs have the same holder.  The run of each outcome begins in the scene that the runs before
it leave; whatever it makes is below its holder and whatever it has found stays as it is.  What it
leaves is still there, unchanged, at the end. -/
theorem execute_isolated {outcomes : List RunOutcome} (hs : s.Forest)
    (h : d.execute? fuel s source = some (outcomes, s', source')) :
    outcomes.length = d.repetitions ∧
    outcomes.Pairwise (fun o o' => ∀ i j, o.holder = some i → o'.holder = some j → i ≠ j) ∧
    ∀ i o, outcomes[i]? = some o → ∃ before source₁ f after source₂,
      d.runTimes? fuel i s source = some (outcomes.take i, before, source₁) ∧
      d.IsolatedRun fuel before source₁ f o after source₂ ∧
      ∀ id e, after.get? id = some e → s'.get? id = some e := by
  obtain ⟨hlength, hruns⟩ := exists_of_getElem?_runTimes? h
  refine ⟨hlength, (holders_of_runTimes? hs h).2, fun i o ho => ?_⟩
  obtain ⟨before, source₁, after, source₂, hbefore, honce, hafter⟩ := hruns i o ho
  obtain ⟨hforest, f, hisolated⟩ := IsolatedRun.of_runOnce? (forest_of_runTimes? hs hbefore).1 honce
  exact ⟨before, source₁, f, after, source₂, hbefore, hisolated,
    (forest_of_runTimes? hforest hafter).2⟩

/-- Two runs of a grammar that hangs a row of boxes below a box and moves it, out of the
region by its first alternative and within it by its second one.  No pass may fail, and
the holders are scattered. -/
def strewn : Document Float32 where
  start := "<o A>"
  engine := ⟨2, false, false, 0⟩
  rules := [⟨"A", [⟨1, "<o G><m SetParent(F)><m Move(9,0,0)>"⟩,
    ⟨1, "<o G><m SetParent(F)><m Move(2,0,0)>"⟩]⟩]
  links := [⟨"A", ["box"]⟩, ⟨"G", ["row"]⟩]
  prefabs := [⟨"box", .tile ⟨.one, .none, .zero⟩⟩,
    ⟨"row", .generator ⟨⟨1, .xz, none, none, false, false⟩, ["box"]⟩⟩]
  space := some ⟨.zero, ⟨4, 4, 4⟩, .zero, false⟩
  scatter := some ⟨.zero, ⟨4, 4, 4⟩⟩
  repetitions := 2
  seed := none

/-- The first run gives up and leaves a box below its holder; the box, the row and the box of the
row that the second one makes are below another holder. -/
theorem execute_isolated_strewn :
    ∃ (outcomes : List RunOutcome) (s : Scene Float32) (source : Replay) (second : RunOutcome),
      strewn.buildScene.Forest ∧
      strewn.execute? 5 strewn.buildScene (⟨#[0, 0.25, 0.75, 0.5, 0.9], 0⟩ : Replay) =
        some (outcomes, s, source) ∧
      outcomes.map (fun o => (o.holder, o.result.toOption.map Report.spawned)) =
        [(some 0, none), (some 4, some [5, 6])] ∧
      s.live.map (fun p => (p.1, p.2.parent)) =
        [(0, none), (1, some 0), (4, none), (5, some 4), (6, some 5), (7, some 6)] ∧
      outcomes.length = 2 ∧ outcomes[1]? = some second ∧
      ∃ before source₁ f after source₂,
        strewn.runTimes? 5 1 strewn.buildScene (⟨#[0, 0.25, 0.75, 0.5, 0.9], 0⟩ : Replay) =
          some (outcomes.take 1, before, source₁) ∧
        strewn.IsolatedRun 5 before source₁ f second after source₂ ∧
        ∀ id e, after.get? id = some e → s.get? id = some e := by
  have hall : (strewn.execute? 5 strewn.buildScene
      (⟨#[0, 0.25, 0.75, 0.5, 0.9], 0⟩ : Replay)).map (fun p => decide
        (p.1.map (fun o => (o.holder, o.result.toOption.map Report.spawned)) =
            [(some 0, none), (some 4, some [5, 6])] ∧
          p.2.1.live.map (fun p => (p.1, p.2.parent)) =
            [(0, none), (1, some 0), (4, none), (5, some 4), (6, some 5), (7, some 6)])) =
      some true := by
    decide +kernel
  obtain ⟨⟨outcomes, s, source⟩, h, hfacts⟩ := Option.map_eq_some_iff.mp hall
  obtain ⟨houtcomes, hlive⟩ := of_decide_eq_true hfacts
  have hscene : strewn.buildScene.Forest := .empty ..
  obtain ⟨hlength, -, hruns⟩ := execute_isolated hscene h
  have hlength : outcomes.length = 2 := hlength
  have hlt : 1 < outcomes.length := by rw [hlength]; decide
  have hsecond := List.getElem?_eq_getElem hlt
  exact ⟨outcomes, s, source, _, hscene, h, houtcomes, hlive, hlength, hsecond, hruns 1 _ hsecond⟩

end Document

end SpatialGrammar
