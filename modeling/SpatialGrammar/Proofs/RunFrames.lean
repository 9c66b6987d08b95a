/-
SpatialGrammar/Proofs/RunFrames.lean

What the entities of a run hang below.

A run that finds handles up to `lo` given out hangs its entities below each other only, younger
ones below older ones (`Scene.Rooted`), and leaves none of them loose but its holder
(`Scene.Held`).  A method can hang an object below a producer of it; that one was made by an
earlier pass of the same run (`Layered.lineage_made`, `RunState.Sited`), so this is kept too.

For what the run has found it follows that not even a list of children changes
(`Scene.Grown.get?_old`).
-/
import SpatialGrammar.Proofs.Rollback
import SpatialGrammar.Proofs.Standing

namespace SpatialGrammar

variable {α ρ : Type}

namespace Scene

variable {lo : Nat} {s₀ s t : Scene α} {objects : List EntityId}

/-! ### Entities that hang below nothing -/

/-- An entity from `lo` on that hangs below nothing is the holder. -/
def Held (lo : Nat) (s : Scene α) : Prop :=
  ∀ id e, lo ≤ id → s.get? id = some e → e.parent = none → s.holder = some id

/-- Where everything stands alike, the same entities hang below nothing. -/
theorem Held.congr (hs : s.Held lo) (h : ∀ id, t.standing? id = s.standing? id)
    (hholder : t.holder = s.holder) : t.Held lo := by
  intro id e' hle he' hp
  obtain ⟨e, he, -, hparent, -⟩ := exists_of_standing? (h id) he'
  rw [hholder]
  exact hs id e hle he (hparent ▸ hp)

theorem Held.entered {h : EntityId} {n : Nat} (hs : s.Held lo) (he : Entered s h n t) :
    t.Held lo := by
  intro id e hle hid hp
  rw [he.holder]
  rcases he.cases hid with ⟨-, e₀, he₀, rfl⟩ | ⟨-, hparent, -⟩ | ⟨-, -, hparent, -⟩
  · exact hs id e₀ hle he₀ hp
  · rw [hparent] at hp
    cases hp
  · rw [hparent] at hp
    cases hp

variable [Scalar α]

/-- A method takes no entity away from what it is below of without hanging it below another one. -/
theorem Held.dispatch [Numeral α] (hs : s.Held lo) (x : EntityId) (call : MethodCall) :
    (s.dispatch x call).2.Held lo := by
  obtain ⟨hother, -, hself⟩ := s.dispatch_spec x call
  intro id e' hle he' hp
  rw [holder_dispatch]
  by_cases hne : id = x
  · subst hne
    obtain ⟨e, he, hparent | ⟨p, -, hparent⟩⟩ := hself e' he'
    · exact hs id e hle he (hparent ▸ hp)
    · rw [hparent] at hp
      cases hp
  · obtain ⟨e, he, -, hparent, -⟩ := exists_of_standing? (hother id hne) he'
    exact hs id e hle he (hparent ▸ hp)

theorem Held.ensureHolder (hs : s.Held lo) (name : String) : (s.ensureHolder name).2.Held lo := by
  rcases s.ensureHolder_cases name with ⟨_, -, -, heq⟩ | ⟨hdead, e₀, -, -, -, heq⟩ <;> rw [heq]
  · exact hs
  have hget (id : EntityId) :
      Scene.get? { (s.insert e₀).2 with holder := some s.entities.size } id =
        if id = s.entities.size then some e₀ else s.get? id := get?_insert s e₀ id
  intro id e hle he hp
  rw [hget] at he
  split at he
  · next hid => exact congrArg some hid.symm
  · -- another entity that is below nothing would be the holder that was found dead
    have hnone := hdead id (hs id e hle he hp)
    rw [he] at hnone
    cases hnone

theorem Held.spawn [RandomSource ρ α] (hs : s.Held lo) (request : SpawnRequest) (source : ρ) :
    (s.spawn request source).2.1.Held lo := by
  obtain ⟨-, n, he⟩ := s.spawn_spec request source
  exact (hs.ensureHolder request.name).entered he

omit [Scalar α] in
theorem Held.settle (hs : s.Held lo) (id : EntityId) : (s.settle id).Held lo :=
  hs.congr (standing?_settle s id) rfl

omit [Scalar α] in
theorem Rooted.settle (hs : s.Rooted lo) (id : EntityId) : (s.settle id).Rooted lo :=
  hs.congr (standing?_settle s id) rfl

/-! ### Scenes that have grown -/

omit [Scalar α] in
/-- What the run has found stays as it is while the scene grows: only what the run has made gets new
children. -/
theorem Grown.get?_old (h : Grown s₀ objects s) (hs : s.Rooted lo) (hsize : lo ≤ s₀.entities.size)
    {id : EntityId} (hid : id < lo) : s.get? id = s₀.get? id := by
  rw [← h.old id (Nat.lt_of_lt_of_le hid hsize)]
  rcases he : s.get? id with - | e
  · rfl
  -- a new child would be an entity of the run that hangs below one that the run has found
  have hchildren : ∀ c ∈ e.children, c < s₀.entities.size := by
    refine fun c hc => Nat.lt_of_not_le fun hle => ?_
    obtain ⟨ec, hec⟩ := h.child_live id e c he hle hc
    have hparent : ec.parent = some id := (h.link id e c ec he hle hec).mp hc
    obtain ⟨hlo, -⟩ := hs.since c ec id (Nat.le_trans hsize hle) hec hparent
    exact Nat.not_lt.mpr hlo hid
  have hfilter : e.children.filter (fun c => decide (c < s₀.entities.size)) = e.children :=
    List.filter_eq_self.mpr fun c hc => decide_eq_true (hchildren c hc)
  simp [Entity.upTo, hfilter]

omit [Scalar α] in
/-- A live holder stays live while the scene grows, and a new one is live. -/
theorem Grown.exists_holder (h : Grown s₀ objects s) (hs : s.Grounded)
    (hlive : ∀ j, s₀.holder = some j → ∃ e, s₀.get? j = some e) {j : EntityId}
    (hj : s.holder = some j) : ∃ e, s.get? j = some e := by
  rcases h.holder with hsame | ⟨hplace, -⟩
  · -- nothing that was live when the pass began is gone
    obtain ⟨e, he⟩ := hlive j (hsame ▸ hj)
    obtain ⟨e', he', -⟩ := Option.map_eq_some_iff.mp ((h.old j (lt_size he)).trans he)
    exact ⟨e', he'⟩
  · rw [hplace] at hj
    obtain rfl := Option.some.inj hj
    obtain ⟨j, e, hj, he⟩ := h.holder_live (hs.holder _ hplace)
    rw [hplace] at hj
    obtain rfl := Option.some.inj hj
    exact ⟨e, he⟩

omit [Scalar α] in
/-- A scene that was restored is rooted as it was. -/
theorem Grown.rooted (h : Grown s [] t) (hs : s.Rooted lo) (hsize : lo ≤ s.entities.size) :
    t.Rooted lo := by
  obtain ⟨hold, hnew⟩ := h.restored
  refine ⟨?_, ?_, ?_⟩
  · intro id e p hid he hp
    rw [hold id (Nat.lt_of_lt_of_le hid hsize)] at he
    exact hs.before id e p hid he hp
  · intro id e p hid he hp
    by_cases hlt : id < s.entities.size
    · rw [hold id hlt] at he
      exact hs.since id e p hid he hp
    · obtain ⟨-, -, -, hroot, -⟩ := hnew id e (Nat.le_of_not_lt hlt) he
      rw [hroot] at hp
      cases hp
  · intro j hj
    rcases h.holder with hsame | ⟨hplace, -⟩
    · exact hs.holder j (hsame ▸ hj)
    · rw [hplace] at hj
      rw [← Option.some.inj hj]
      exact hsize

omit [Scalar α] in
/-- Nor is anything left loose in it. -/
theorem Grown.held (h : Grown s [] t) (hs : s.Held lo) : t.Held lo := by
  obtain ⟨hold, hnew⟩ := h.restored
  intro id e hle he hp
  by_cases hlt : id < s.entities.size
  · -- a holder that was live has not been replaced
    rw [hold id hlt] at he
    have hcurrent := hs id e hle he hp
    rcases h.holder with hsame | ⟨-, hdead⟩
    · exact hsame.trans hcurrent
    · have hnone := hdead id hcurrent
      rw [he] at hnone
      cases hnone
  · exact (hnew id e (Nat.le_of_not_lt hlt) he).2.1

end Scene

variable [Scalar α] [Numeral α] [RandomSource ρ α]

/-! ### Passes -/

/-- What a pass that began in `s₀` has hung below what when `ids` are still to be read. -/
structure PassFrames (lo : Nat) (r : Run α (Scene α)) (s₀ : RunState (Scene α) ρ)
    (ids : List SymbolId) (next : Sentence) (waiting : Option SymbolId)
    (s : RunState (Scene α) ρ) : Prop where
  growth : PassGrowth r s₀ ids next waiting s
  sited : s.Sited lo
  rooted : s.world.Rooted lo

namespace PassFrames

variable {r : Run α (Scene α)} {lo layer : Nat} {s₀ s : RunState (Scene α) ρ}

omit [Numeral α] in
theorem start (hs : s₀.Sited lo) (hrooted : s₀.world.Rooted lo) :
    PassFrames lo r s₀ s₀.current.symbols.toList .empty none
      { s₀ with spawnedThisPass := #[] } where
  growth := .start hs
  sited := hs.congr rfl fun _ => rfl
  rooted := hrooted

/-- **A pass keeps this**, since the producers above an object are older than it and of the same
run. -/
theorem passInvariant (hl : Layered r layer s₀) (hs : s₀.Sited lo) :
    PassInvariant r (PassFrames lo r s₀) := by
  have hgrowth := PassGrowth.passInvariant hl hs
  refine ⟨?_, ?_, ?_, ?_, ?_⟩
  · -- method
    intro id rest next waiting s hk h
    have hg := hgrowth.method hk h.growth
    have hsited := h.sited.dispatch id waiting
    rcases s.dispatch_cases id waiting with ⟨_, heq⟩ |
      ⟨object, e, call, _, _, _, hobject, he, hlineage, hp, heq⟩ <;> rw [heq] at hg hsited ⊢
    · exact ⟨hg, hsited, h.rooted⟩
    · obtain ⟨-, rfl⟩ := Prod.mk.inj hp
      have hbase := (h.growth.grown.live e (h.growth.waiting_made object e hobject he)).1
      -- the producers above the object were made before the pass, and the object in it
      have habove (p : EntityId) (hp : some p ∈ call.lineage) : lo ≤ p ∧ p < e := by
        rw [hlineage] at hp
        obtain ⟨q, hq⟩ := hl.lineage_made h.growth.writing.writing
          (h.growth.writing.waiting_mem object hobject) hp
        obtain ⟨hlo, hlt⟩ := hs.made q p hq
        exact ⟨hlo, Nat.lt_of_lt_of_le hlt hbase⟩
      exact ⟨hg, hsited, h.rooted.dispatch (Nat.le_trans hs.size_le hbase) habove⟩
  · -- invalid
    intro id rest next waiting s hk h
    exact ⟨hgrowth.invalid hk h.growth, h.sited, h.rooted⟩
  · -- check
    intro ids next waiting s hc h
    refine ⟨hgrowth.check hc h.growth, h.sited.check waiting, ?_⟩
    rw [r.check_world]
    exact h.rooted
  · -- rule
    intro id rest next s hk h
    refine ⟨hgrowth.rule hk h.growth, h.sited.expand id [] next, ?_⟩
    obtain ⟨_, _, _, hf⟩ := r.expand_frame id [] next s
    rw [hf]
    exact h.rooted
  · -- object
    intro id rest next s hk h
    refine ⟨hgrowth.object hk h.growth, (h.sited.spawn id).expand id [] next, ?_⟩
    obtain ⟨_, _, _, hf⟩ := r.expand_frame id [] next (s.spawn id)
    rw [hf]
    exact h.rooted.spawn h.sited.size_le _ s.source

end PassFrames

/-! ### Runs -/

/-- Between passes: what the run has made hangs below what it has made, or is the holder. -/
structure RunState.Framed (lo : Nat) (s : RunState (Scene α) ρ) : Prop where
  sited : s.Sited lo
  rooted : s.world.Rooted lo
  held : s.world.Held lo

namespace RunState.Framed

variable {r : Run α (Scene α)} {lo layer : Nat} {s : RunState (Scene α) ρ}

omit [Scalar α] [Numeral α] [RandomSource ρ α] in
theorem congr {t : RunState (Scene α) ρ} (h : s.Framed lo) (hworld : t.world = s.world)
    (hsited : t.Sited lo) : t.Framed lo :=
  ⟨hsited, by rw [hworld]; exact h.rooted, by rw [hworld]; exact h.held⟩

/-- A run begins without entities. -/
theorem begin {w : Scene α} (hw : w.Grounded) (hholder : w.holder = none) (source : ρ) :
    (r.begin w source).Framed w.entities.size := by
  refine ⟨.begin hw source, ⟨?_, ?_, ?_⟩, ?_⟩
  · exact fun id e p _ he hp => (hw.entity id e he).parent p hp
  · exact fun id e p hle he _ => absurd (Scene.lt_size he) (Nat.not_lt.mpr hle)
  · intro j hj
    have hj : w.holder = some j := hj
    rw [hholder] at hj
    cases hj
  · exact fun id e hle he _ => absurd (Scene.lt_size he) (Nat.not_lt.mpr hle)

/-- A pass that is completed leaves a scene that has grown. -/
theorem completed {next : Sentence} {s' : RunState (Scene α) ρ} (h : s.Framed lo)
    (hl : Layered r layer s) (hp : r.pass s = .completed next s') :
    s'.Framed lo ∧ s.world.Grown s'.spawnedThisPass.toList s'.world := by
  have hk := (PassFrames.passInvariant hl h.sited).pass (PassFrames.start h.sited h.rooted)
  -- spawning and methods keep this by themselves, whatever the pass has done before
  have hheld : (r.pass s).state.world.Held lo :=
    Run.pass_keeps (P := Scene.Held lo) (fun request _ source hw => hw.spawn request source)
      (fun x call _ hw => hw.dispatch x call) h.held
  rw [hp] at hk hheld
  have hk : PassFrames lo r s [] next none s' := hk
  exact ⟨⟨hk.sited, hk.rooted, hheld⟩, hk.growth.grown⟩

/-- A pass that fails is taken back, with all that it has hung below anything. -/
theorem violated {symbol : SymbolId} {s' : RunState (Scene α) ρ} (h : s.Framed lo)
    (hl : Layered r layer s) (hp : r.pass s = .violated symbol s') :
    s'.abandon.Framed lo ∧ s.world.Grown [] s'.abandon.world := by
  have hsited : s'.Sited lo := by simpa [hp] using h.sited.pass (r := r)
  have hgrown : s.world.Grown [] s'.abandon.world := Run.rollBack_grown hl h.sited hp
  exact ⟨⟨hsited.abandon, hgrown.rooted h.rooted h.sited.size_le, hgrown.held h.held⟩, hgrown⟩

end RunState.Framed

end SpatialGrammar
