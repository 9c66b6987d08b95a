/-
SpatialGrammar/Proofs/RegionSoundness.lean

The tiles of a run lie in its region.

An entity is tested once, before the next object is spawned, and nothing that happens after
that moves it: methods are for the youngest object, which nothing older stands on, and
rolling back restores what was there.  So at every moment all tiles of the run have passed
the test, except those of the object that waits for it (`Scene.InsideBut`); between passes
there is no exception (`RunState.Confined`), and the end of the run moves nothing either.
-/
import SpatialGrammar.Decimal.Layout
import SpatialGrammar.Document.Execution
import SpatialGrammar.Proofs.RunFrames
import SpatialGrammar.Random.Replay

namespace SpatialGrammar

variable {α ρ : Type} [Scalar α]

/-! ### Tiles in a region -/

namespace Scene

variable {region : Region α} {lo : Nat} {s t : Scene α} {x : EntityId}

/-- The tiles from `lo` on lie in the region. -/
def Inside (region : Region α) (lo : Nat) (s : Scene α) : Prop :=
  ∀ id, lo ≤ id → tileOutside region s id = false

/-- The tiles from `lo` on lie in the region, except that `x` is still to be tested; whatever is
younger is listed by it. -/
structure InsideBut (region : Region α) (lo : Nat) (x : EntityId) (s : Scene α) : Prop where
  inside : ∀ id, lo ≤ id → id < x → tileOutside region s id = false
  listed : ∀ id e, x < id → s.get? id = some e →
    ∃ tiles height, (s.get? x).map Entity.kind = some (.generator tiles height) ∧ id ∈ tiles

/-- Only a live tile can lie outside. -/
theorem exists_of_tileOutside {id : EntityId} (h : tileOutside region s id = true) :
    ∃ e shape, s.get? id = some e ∧ e.kind = .tile shape := by
  unfold tileOutside at h
  split at h
  · next shape _ hkind _ =>
    obtain ⟨e, he, hk⟩ := Option.map_eq_some_iff.mp hkind
    exact ⟨e, shape, he, hk⟩
  · cases h

/-- **A test that is passed makes good the exception.** -/
theorem InsideBut.inside_of_test (h : InsideBut region lo x s)
    (htest : violates region s x = false) : s.Inside region lo := by
  intro id hle
  rcases Nat.lt_trichotomy id x with hlt | rfl | hgt
  · exact h.inside id hle hlt
  · refine Bool.eq_false_iff.mpr fun hout => ?_
    obtain ⟨e, shape, he, hkind⟩ := exists_of_tileOutside hout
    simp [violates, he, hkind, hout] at htest
  · refine Bool.eq_false_iff.mpr fun hout => ?_
    obtain ⟨e, shape, he, -⟩ := exists_of_tileOutside hout
    obtain ⟨tiles, height, hkind, hmem⟩ := h.listed id e hgt he
    simp only [violates, hkind, List.any_eq_false] at htest
    exact htest id hmem hout

/-- A method of the entity that is still to be tested. -/
theorem InsideBut.dispatch [Numeral α] (h : InsideBut region lo x s) (hs : s.Rooted lo)
    (call : MethodCall) : InsideBut region lo x (s.dispatch x call).2 := by
  obtain ⟨hother, hkind, -⟩ := s.dispatch_spec x call
  refine ⟨?_, ?_⟩
  · intro id hle hlt
    have hstanding (j : EntityId) (_ : lo ≤ j) (hj : j ≤ id) :
        (s.dispatch x call).2.standing? j = s.standing? j :=
      hother j (Nat.ne_of_lt (Nat.lt_of_le_of_lt hj hlt))
    rw [hs.tileOutside_congr region hle hstanding (Nat.le_of_eq (size_dispatch ..).symm)]
    exact h.inside id hle hlt
  · intro id e' hgt he'
    obtain ⟨e, he, -⟩ := exists_of_standing? (hother id (Nat.ne_of_gt hgt)) he'
    rw [hkind]
    exact h.listed id e hgt he

/-- What is spawned is still to be tested. -/
theorem Inside.spawn [RandomSource ρ α] (h : s.Inside region lo) (hs : s.Rooted lo)
    (request : SpawnRequest) (source : ρ) :
    InsideBut region lo (s.spawn request source).1.1 (s.spawn request source).2.1 := by
  obtain ⟨hid, n, he⟩ := s.spawn_spec request source
  obtain ⟨hle, hlt⟩ := s.spawn_lt_size request source
  refine ⟨?_, ?_⟩
  · intro id hlo hidlt
    by_cases hold : id < s.entities.size
    · have hstanding (j : EntityId) (_ : lo ≤ j) (hj : j ≤ id) :
          (s.spawn request source).2.1.standing? j = s.standing? j :=
        standing?_spawn (Nat.lt_of_le_of_lt hj hold) request source
      rw [hs.tileOutside_congr region hlo hstanding (Nat.le_of_lt (Nat.lt_of_le_of_lt hle hlt))]
      exact h id hlo
    · -- there is only the holder between what was there and the object
      refine Bool.eq_false_iff.mpr fun hout => ?_
      obtain ⟨e, shape, hget, hkind⟩ := exists_of_tileOutside hout
      rw [hid] at hidlt
      rw [he.old id hidlt] at hget
      obtain ⟨e₁, he₁, rfl⟩ := Option.map_eq_some_iff.mp hget
      rcases s.ensureHolder_cases request.name with ⟨_, -, -, heq⟩ | ⟨-, e₀, hholder, -, -, heq⟩ <;>
        rw [heq] at he₁
      · exact hold (lt_size he₁)
      · have hins : (s.insert e₀).2.get? id = some e₁ := he₁
        rw [get?_insert] at hins
        split at hins
        · obtain rfl := Option.some.inj hins
          rw [hholder] at hkind
          cases hkind
        · exact hold (lt_size hins)
  · intro id e hgt hget
    rw [hid] at hgt
    rcases he.cases hget with ⟨hlt', -⟩ | ⟨rfl, -⟩ | ⟨-, hltn, -⟩
    · exact absurd hgt (Nat.lt_asymm hlt')
    · exact absurd hgt (Nat.lt_irrefl _)
    · obtain ⟨eo, ho, -, -, hzero | ⟨height, hkind⟩⟩ := he.object
      · subst hzero
        exact absurd hgt (Nat.not_lt.mpr (Nat.le_of_lt_succ hltn))
      · refine ⟨_, height, ?_, List.mem_range'_1.mpr ⟨hgt, hltn⟩⟩
        rw [hid, ho]
        exact congrArg some hkind

/-- A scene that was restored. -/
theorem Grown.inside (h : Grown s [] t) (hs : s.Rooted lo) (hi : s.Inside region lo) :
    t.Inside region lo := by
  obtain ⟨hold, hnew⟩ := h.restored
  intro id hle
  by_cases hlt : id < s.entities.size
  · have hstanding (j : EntityId) (_ : lo ≤ j) (hj : j ≤ id) : t.standing? j = s.standing? j := by
      rw [standing?, hold j (Nat.lt_of_le_of_lt hj hlt), standing?]
    rw [hs.tileOutside_congr region hle hstanding h.size_le]
    exact hi id hle
  · refine Bool.eq_false_iff.mpr fun hout => ?_
    obtain ⟨e, shape, he, hkind⟩ := exists_of_tileOutside hout
    obtain ⟨-, -, hholder, -⟩ := hnew id e (Nat.le_of_not_lt hlt) he
    rw [hholder] at hkind
    cases hkind

end Scene

variable [Numeral α] [RandomSource ρ α]

/-! ### Passes -/

/-- What a pass that began in `s₀` has made of the tiles when `ids` are still to be read: they lie
in the region, except those of the object that waits for its test. -/
structure PassInside (region : Region α) (lo : Nat) (r : Run α (Scene α))
    (s₀ : RunState (Scene α) ρ) (ids : List SymbolId) (next : Sentence)
    (waiting : Option SymbolId) (s : RunState (Scene α) ρ) : Prop where
  growth : PassGrowth r s₀ ids next waiting s
  sited : s.Sited lo
  rooted : s.world.Rooted lo
  inside : (∀ object, waiting = some object → (s.arena.get object).entity = none) →
    s.world.Inside region lo
  insideBut : ∀ object e, waiting = some object → (s.arena.get object).entity = some e →
    s.world.InsideBut region lo e

namespace PassInside

variable {r : Run α (Scene α)} {region : Region α} {lo layer : Nat} {s₀ s : RunState (Scene α) ρ}

omit [Numeral α] in
theorem start (hs : s₀.Sited lo) (hrooted : s₀.world.Rooted lo)
    (hinside : s₀.world.Inside region lo) :
    PassInside region lo r s₀ s₀.current.symbols.toList .empty none
      { s₀ with spawnedThisPass := #[] } where
  growth := .start hs
  sited := hs.congr rfl fun _ => rfl
  rooted := hrooted
  inside := fun _ => hinside
  insideBut := by simp

omit [Numeral α] in
theorem frames {ids : List SymbolId} {next : Sentence} {waiting : Option SymbolId}
    (h : PassInside region lo r s₀ ids next waiting s) : PassFrames lo r s₀ ids next waiting s :=
  ⟨h.growth, h.sited, h.rooted⟩

/-- **A pass keeps this**, if the region is what it tests for. -/
theorem passInvariant (hl : Layered r layer s₀) (hs : s₀.Sited lo)
    (hregion : r.violates = Scene.violates region) :
    PassInvariant r (PassInside region lo r s₀) := by
  have hframes := PassFrames.passInvariant hl hs
  refine ⟨?_, ?_, ?_, ?_, ?_⟩
  · -- method: of the object that waits, so that only its own tiles move
    intro id rest next waiting s hk h
    obtain ⟨hg, hsited, hrooted⟩ := hframes.method hk h.frames
    rcases s.dispatch_cases id waiting with ⟨_, heq⟩ |
      ⟨object, e, call, _, _, _, hobject, he, -, hp, heq⟩ <;> rw [heq] at hg hsited hrooted ⊢
    · exact ⟨hg, hsited, hrooted, h.inside, h.insideBut⟩
    · obtain ⟨-, rfl⟩ := Prod.mk.inj hp
      refine ⟨hg, hsited, hrooted, ?_, ?_⟩
      · intro hnone
        have hnone : (s.arena.get object).entity = none := hnone object hobject
        rw [he] at hnone
        cases hnone
      · intro object' e' hobject' he'
        rw [hobject] at hobject'
        obtain rfl := Option.some.inj hobject'
        have he' : (s.arena.get object).entity = some e' := he'
        rw [he] at he'
        obtain rfl := Option.some.inj he'
        exact (h.insideBut object e hobject he).dispatch h.rooted call
  · -- invalid
    intro id rest next waiting s hk h
    obtain ⟨hg, hsited, hrooted⟩ := hframes.invalid hk h.frames
    exact ⟨hg, hsited, hrooted, h.inside, h.insideBut⟩
  · -- check: the tiles of the object that waits have been tested
    intro ids next waiting s hc h
    obtain ⟨hg, hsited, hrooted⟩ := hframes.check hc h.frames
    rcases r.check_cases waiting s with ⟨hnone, heq⟩ | ⟨object, e, hobject, he, hv, heq⟩ |
      ⟨_, _, -, -, -, heq⟩ <;> rw [heq] at hc hg hsited hrooted ⊢
    · exact ⟨hg, hsited, hrooted, fun _ => h.inside hnone, by simp⟩
    · rw [hregion] at hv
      exact ⟨hg, hsited, hrooted,
        fun _ => (h.insideBut object e hobject he).inside_of_test hv, by simp⟩
    · cases hc
  · -- rule
    intro id rest next s hk h
    obtain ⟨hg, hsited, hrooted⟩ := hframes.rule hk h.frames
    obtain ⟨_, _, _, hf⟩ := r.expand_frame id [] next s
    have hworld : (r.expand id [] next s).2.world = s.world := by rw [hf]
    refine ⟨hg, hsited, hrooted, fun _ => ?_, by simp⟩
    rw [hworld]
    exact h.inside (by simp)
  · -- object: it waits for its test
    intro id rest next s hk h
    obtain ⟨hg, hsited, hrooted⟩ := hframes.object hk h.frames
    let request : SpawnRequest := ⟨(s.arena.get id).name, (s.arena.get id).args⟩
    obtain ⟨_, _, _, hf⟩ := r.expand_frame id [] next (s.spawn id)
    have hworld : (r.expand id [] next (s.spawn id)).2.world =
        (s.world.spawn request s.source).2.1 := by
      rw [hf]
      rfl
    have hlt : id < s.arena.size := by
      obtain ⟨-, done, -, -, hw⟩ := h.growth.writing.writing
      exact Nat.lt_of_lt_of_le (hl.lt_size id h.growth.writing.writing.mem) hw.size_le
    have hentity : ((r.expand id [] next (s.spawn id)).2.arena.get id).entity =
        some (s.world.spawn request s.source).1.1 := by
      rw [r.expand_entity]
      exact congrArg Symbol.entity (Arena.get_setEntity_self hlt _)
    refine ⟨hg, hsited, hrooted, ?_, ?_⟩
    · intro hnone
      have hnone := hnone id rfl
      rw [hentity] at hnone
      cases hnone
    · rintro _ e ⟨⟩ he
      rw [hentity] at he
      obtain rfl := Option.some.inj he
      rw [hworld]
      exact (h.inside (by simp)).spawn h.rooted request s.source

end PassInside

/-! ### Runs -/

/-- Between passes: the entities of the run are rooted, and its tiles lie in the region. -/
structure RunState.Confined (region : Region α) (lo : Nat) (s : RunState (Scene α) ρ) : Prop where
  sited : s.Sited lo
  rooted : s.world.Rooted lo
  inside : s.world.Inside region lo

namespace RunState.Confined

variable {r : Run α (Scene α)} {region : Region α} {lo layer : Nat} {s : RunState (Scene α) ρ}

omit [Numeral α] [RandomSource ρ α] in
theorem congr {t : RunState (Scene α) ρ} (h : s.Confined region lo) (hworld : t.world = s.world)
    (hsited : t.Sited lo) : t.Confined region lo :=
  ⟨hsited, by rw [hworld]; exact h.rooted, by rw [hworld]; exact h.inside⟩

/-- A pass that is completed has tested all that it made. -/
theorem completed {next : Sentence} {s' : RunState (Scene α) ρ} (h : s.Confined region lo)
    (hl : Layered r layer s) (hregion : r.violates = Scene.violates region)
    (hp : r.pass s = .completed next s') : s'.Confined region lo := by
  have hk := (PassInside.passInvariant hl h.sited hregion).pass
    (PassInside.start h.sited h.rooted h.inside)
  rw [hp] at hk
  have hk : PassInside region lo r s [] next none s' := hk
  exact ⟨hk.sited, hk.rooted, hk.inside (by simp)⟩

/-- A pass that fails is taken back. -/
theorem violated {symbol : SymbolId} {s' : RunState (Scene α) ρ} (h : s.Confined region lo)
    (hl : Layered r layer s) (hp : r.pass s = .violated symbol s') :
    s'.abandon.Confined region lo := by
  have hsited : s'.Sited lo := by simpa [hp] using h.sited.pass (r := r)
  have hgrown : s.world.Grown [] s'.abandon.world := Run.rollBack_grown hl h.sited hp
  exact ⟨hsited.abandon, hgrown.rooted h.rooted h.sited.size_le, hgrown.inside h.rooted h.inside⟩

/-- At every pass of a run its tiles lie in the region. -/
theorem of_reaches {w : Scene α} (hw : w.Grounded) (hholder : w.holder = none)
    (hregion : r.violates = Scene.violates region) {source : ρ}
    (hr : r.Reaches (r.begin w source) s) : s.Confined region w.entities.size := by
  induction hr with
  | refl =>
    obtain ⟨hsited, hrooted, -⟩ := RunState.Framed.begin (r := r) hw hholder source
    refine ⟨hsited, hrooted, fun id hle => Bool.eq_false_iff.mpr fun hout => ?_⟩
    obtain ⟨e, _, he, -⟩ := Scene.exists_of_tileOutside hout
    exact Nat.not_lt.mpr hle (Scene.lt_size he)
  | tail hr hstep ih =>
    obtain ⟨layer, hl⟩ := Layered.of_reaches hr
    have hsited := ih.sited.again hstep
    rcases Run.step_again hstep with ⟨next, s', hp, -, rfl⟩ | ⟨symbol, s', hp, rfl⟩
    · exact (ih.completed hl hregion hp).congr rfl hsited
    · obtain ⟨_, _, _, _, _, hf⟩ := r.retry_frame symbol s'.abandon
      exact (ih.violated hl hp).congr (by rw [hf]) hsited

/-- Telling the entities of the end of the run moves none of them. -/
theorem finish (h : s.Confined region lo) :
    s.finish.2.world.Rooted lo ∧ s.finish.2.world.Inside region lo := by
  -- no frame and no pose changes, so neither does any test
  refine RunState.finish_keeps (P := fun w : Scene α => w.Rooted lo ∧ w.Inside region lo) ?_
    ⟨h.rooted, h.inside⟩
  rintro x w ⟨hrooted, hinside⟩
  have hstanding (j : EntityId) := Scene.standing?_settle w x j
  refine ⟨hrooted.settle x, fun id hle => ?_⟩
  have hsize : w.entities.size ≤ (w.settle x).entities.size :=
    Nat.le_of_eq (Scene.size_modify ..).symm
  exact (hrooted.tileOutside_congr region hle (fun j _ _ => hstanding j) hsize).trans
    (hinside id hle)

/-- When a run ends, its tiles lie in the region. -/
theorem run? {w : Scene α} (hw : w.Grounded) (hholder : w.holder = none)
    (hregion : r.violates = Scene.violates region) {fuel : Nat} {source : ρ}
    {f : Finished (Scene α) ρ} (hf : r.run? fuel w source = some f) :
    f.world.Rooted w.entities.size ∧ f.world.Inside region w.entities.size := by
  obtain ⟨s, hr, hdone⟩ := Run.reaches_of_run? hf
  have hs := of_reaches hw hholder hregion hr
  obtain ⟨layer, hl⟩ := Layered.of_reaches hr
  rcases Run.step_done hdone with ⟨-, rfl⟩ | ⟨next, s', -, hp, -, rfl⟩ | ⟨symbol, s', -, hp, rfl⟩
  · exact hs.finish
  · have hs' := hs.completed hl hregion hp
    exact (hs'.congr rfl (hs'.sited.congr rfl fun _ => rfl) : (s'.commit next).Confined _ _).finish
  · exact (hs.violated hl hp).finish

end RunState.Confined

/-! ### Executions -/

namespace Document

variable {d : Document α} {s s' : Scene α} {source source' : ρ}

/-- One run makes of a scene that can come about another one. -/
theorem reachable_of_runOnce? {fuel : Nat} {outcome : RunOutcome} (h : s.Reachable)
    (hr : d.runOnce? fuel s source = some (outcome, s', source')) : s'.Reachable := by
  obtain ⟨f, hf, -, hscatter⟩ := exists_of_runOnce? hr
  have hfinish : f.world.finishRun.2.Reachable :=
    (Scene.worldInvariant_reachable.run? h.beginRun hf).finishRun
  have hcases := d.scatterHolder_cases f.world.holder f.world.finishRun.2 f.source
  rw [hscatter] at hcases
  rcases hcases with rfl | ⟨j, pose, -, rfl⟩
  · exact hfinish
  · exact hfinish.setPose j pose

/-- So do several. -/
theorem reachable_of_runTimes? {fuel n : Nat} {outcomes : List RunOutcome} (h : s.Reachable)
    (hr : d.runTimes? fuel n s source = some (outcomes, s', source')) : s'.Reachable := by
  induction n generalizing s source outcomes with
  | zero =>
    obtain ⟨-, rfl, -⟩ : _ ∧ s = s' ∧ _ := by simpa [runTimes?] using hr
    exact h
  | succ n ih =>
    obtain ⟨outcome, rest, t, source₁, -, ht, hrest⟩ := exists_of_runTimes?_succ hr
    exact ih (reachable_of_runOnce? h ht) hrest

/-- **The tiles of a run lie in the region of the document.**  However many runs went before and
however often a pass of this one was taken back, when it ends every live tile below its holder
stands somewhere in the world where the region contains it. -/
theorem tiles_inside {region : Region α} (hregion : d.region? = some region) (hs : s.Reachable)
    {fuel n : Nat} {outcomes : List RunOutcome}
    (hruns : d.runTimes? fuel n s source = some (outcomes, s', source')) {fuel' : Nat}
    {f : Finished (Scene α) ρ} (hrun : d.run.run? fuel' s'.beginRun source' = some f)
    {holder id : EntityId} (hholder : f.world.holder = some holder) {e : Entity α}
    (he : f.world.get? id = some e) {shape : TileShape α} (hkind : e.kind = .tile shape)
    (hbelow : f.world.isAncestor holder id = true) :
    ∃ pose, f.world.world? id = some pose ∧ region.containsTile pose shape.size = true := by
  have hviolates : d.run.violates = Scene.violates region := by
    simp [run, hregion]
  have hgrounded := (reachable_of_runTimes? hs hruns).beginRun.grounded
  obtain ⟨hrooted, hinside⟩ := RunState.Confined.run? hgrounded rfl hviolates hrun
  -- what was there before the run is not below its holder
  have hle : s'.beginRun.entities.size ≤ id :=
    Nat.le_of_not_lt fun hlt => Nat.not_lt.mpr (hrooted.holder holder hholder)
      (hrooted.lt_of_meetsWithin hlt hbelow)
  obtain ⟨pose, hpose⟩ := Scene.world?_isSome he
  refine ⟨pose, hpose, ?_⟩
  have htest := hinside id hle
  simpa [Scene.tileOutside, he, hkind, hpose] using htest

/-- Two runs of a grammar that hangs a row of boxes below a box and moves it, out of the region by
its first alternative and within it by its second one. -/
def roving : Document Float32 where
  start := "<o A>"
  engine := ⟨2, false, false, 3⟩
  rules := [⟨"A", [⟨1, "<o G><m SetParent(F)><m Move(9,0,0)>"⟩,
    ⟨1, "<o G><m SetParent(F)><m Move(2,0,0)>"⟩]⟩]
  links := [⟨"A", ["box"]⟩, ⟨"G", ["row"]⟩]
  prefabs := [⟨"box", .tile ⟨.one, .none, .zero⟩⟩,
    ⟨"row", .generator ⟨⟨1, .xz, none, none, false, false⟩, ["box"]⟩⟩]
  space := some ⟨.zero, ⟨4, 4, 4⟩, .zero, false⟩
  scatter := none
  repetitions := 2
  seed := none

/-- The second run takes one pass back; the box of its second row is at two along the first axis. -/
theorem tiles_inside_roving :
    ∃ (outcomes : List RunOutcome) (s : Scene Float32) (source : Replay)
      (f : Finished (Scene Float32) Replay) (e : Entity Float32),
      roving.runTimes? 5 1 roving.buildScene (⟨#[0], 0⟩ : Replay) = some (outcomes, s, source) ∧
      roving.run.run? 5 s.beginRun source = some f ∧
      f.outcome.toOption.map Report.recoveries = some 1 ∧
      f.world.holder = some 6 ∧ f.world.get? 11 = some e ∧ e.kind = .tile ⟨.one, .none, .zero⟩ ∧
      f.world.isAncestor 6 11 = true ∧
      ∃ pose, f.world.world? 11 = some pose ∧ pose.position = ⟨2, 0, 0⟩ ∧
        (Region.ofOriginSize .zero ⟨4, 4, 4⟩).containsTile pose (Vec3.one : Vec3 Float32) =
          true := by
  have hall : ((roving.runTimes? 5 1 roving.buildScene (⟨#[0], 0⟩ : Replay)).bind fun p =>
      (roving.run.run? 5 p.2.1.beginRun p.2.2).map fun f => decide
        (f.outcome.toOption.map Report.recoveries = some 1 ∧ f.world.holder = some 6 ∧
          (f.world.get? 11).map Entity.kind = some (.tile ⟨.one, .none, .zero⟩) ∧
          f.world.isAncestor 6 11 = true ∧
          (f.world.world? 11).map Transform.position = some ⟨2, 0, 0⟩)) = some true := by
    decide +kernel
  obtain ⟨⟨outcomes, s, source⟩, hruns, hrest⟩ := Option.bind_eq_some_iff.mp hall
  obtain ⟨f, hf, hfacts⟩ := Option.map_eq_some_iff.mp hrest
  obtain ⟨hrecoveries, hholder, hkind, hbelow, hposition⟩ := of_decide_eq_true hfacts
  obtain ⟨e, he, hkind⟩ := Option.map_eq_some_iff.mp hkind
  have hscene : roving.buildScene.Reachable := .empty ..
  obtain ⟨pose, hpose, hinside⟩ := tiles_inside rfl hscene hruns hf hholder he hkind hbelow
  rw [hpose] at hposition
  exact ⟨outcomes, s, source, f, e, hruns, hf, hrecoveries, hholder, he, hkind, hbelow, pose, hpose,
    Option.some.inj hposition, hinside⟩

end Document

end SpatialGrammar
