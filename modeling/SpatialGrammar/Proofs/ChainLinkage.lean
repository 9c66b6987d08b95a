/-
SpatialGrammar/Proofs/ChainLinkage.lean

How the tiles of a chain are joined.

A chain is grown at its tail, and a tile is not touched again once another one is the tail.
So the whole of a chain is told by what one step does (`ChainTile.Follows`): the tile that
is put on, the two faces, and the face that the old tail is joined at from then on.  While a
chain grows each of its tiles follows the one before it, and the tail is joined by its own
face only (`Chain.Growing.Linked`).  The rest concerns which prefabs are spent.

With these two a generated chain is well formed (`Chain.generate_wellFormed`), and nothing
else is known about it than that it was generated.
-/
import Mathlib.Data.List.Chain
import SpatialGrammar.Proofs.ChainGrowth
import SpatialGrammar.Proofs.Selection

namespace SpatialGrammar

variable {α ρ : Type}

/-! ### Joints -/

/-- The face of its own at which a tile was put on; the first tile of a chain has none. -/
def ChainTile.ownFace (t : ChainTile α) : List Face := (t.joint.map Prod.snd).toList

/-- The faces of two tiles are put together: they are faces of the mode, the tiles have one
identifier at them, which is not zero, and they are not both tops or both bottoms. -/
structure TileShape.Joins (mode : AxisMode) (p : TileShape α) (a : Face) (q : TileShape α)
    (m : Face) : Prop where
  anchor_mem : a ∈ mode.anchorFaces
  moving_vertical : m.isVertical = decide (mode = .y)
  same_id : p.faces.get a = q.faces.get m
  id_ne_zero : p.faces.get a ≠ 0
  not_same : ¬ (a.isVertical = true ∧ a = m)

/-- A tile may be put on by the tops and bottoms in stacks, and by the upright faces elsewhere. -/
theorem AxisMode.mem_movingFaces {mode : AxisMode} {m : Face} :
    m ∈ mode.movingFaces ↔ m.isVertical = decide (mode = .y) := by
  cases mode <;> cases m <;> decide

theorem TileShape.joins_iff {mode : AxisMode} {p q : TileShape α} {a m : Face} :
    TileShape.Joins mode p a q m ↔
      a ∈ mode.anchorFaces ∧ m ∈ mode.movingFaces ∧ p.faces.compatible a q.faces m = true := by
  unfold FaceIds.compatible
  rw [AxisMode.mem_movingFaces]
  simp only [Bool.and_eq_true, decide_eq_true_iff, Bool.not_eq_true', Bool.and_eq_false_iff,
    decide_eq_false_iff_not]
  constructor
  · rintro ⟨ha, hm, hsame, hid, hnot⟩
    refine ⟨ha, hm, ⟨hid, hsame⟩, ?_⟩
    rw [← Bool.not_eq_true]
    exact not_and_or.mp hnot
  · rintro ⟨ha, hm, ⟨hid, hsame⟩, hnot⟩
    refine ⟨ha, hm, hsame, hid, ?_⟩
    rw [← Bool.not_eq_true] at hnot
    exact not_and_or.mpr hnot

/-- The tile `u` was put by its face `m` on the face `a` of the tile `t`, and nothing
else has been put on `t`. -/
structure ChainTile.Follows [Scalar α] (prefabs : Array (TileShape α)) (mode : AxisMode)
    (a m : Face) (t u : ChainTile α) : Prop where
  joint : u.joint = some (a, m)
  used : t.used = t.ownFace ++ [a]
  free : a ∉ t.ownFace
  shapes : ∃ p q, prefabs[t.prefab]? = some p ∧ prefabs[u.prefab]? = some q ∧
    TileShape.Joins mode p a q m ∧
    u.pose = StandingTile.align ⟨p, t.pose⟩ a ⟨q, .identity⟩ m mode

/-- Whether a tile follows another one is told from its prefab, its place and its joint. -/
theorem ChainTile.Follows.congr [Scalar α] {prefabs : Array (TileShape α)} {mode : AxisMode}
    {a m : Face} {t u u' : ChainTile α} (h : t.Follows prefabs mode a m u)
    (hprefab : u'.prefab = u.prefab) (hpose : u'.pose = u.pose) (hjoint : u'.joint = u.joint) :
    t.Follows prefabs mode a m u' where
  joint := hjoint.trans h.joint
  used := h.used
  free := h.free
  shapes := by
    rw [hprefab, hpose]
    exact h.shapes

namespace Chain

variable [Scalar α]

/-! ### Growing -/

/-- Each tile of a growing chain follows the one before it, back to the first one, and the tail is
joined by its own face. -/
structure Growing.Linked (prefabs : Array (TileShape α)) (mode : AxisMode) (first : ChainTile α)
    (g : Growing α) : Prop where
  follows : g.tiles.IsChain fun t u => ∃ a m, t.Follows prefabs mode a m u
  tail_used : g.tail.used = g.tail.ownFace
  begins : ∃ t, g.tiles.head? = some t ∧ t.prefab = first.prefab ∧ t.pose = first.pose ∧
    t.joint = first.joint

variable {prefabs : Array (TileShape α)} {params : ChainParams} {g g' : Growing α} {c : Candidate}
  {finalSlot : Bool}

/-- A candidate that is put on follows the tail. -/
theorem Growing.follows_put (hused : g.tail.used = g.tail.ownFace)
    (hc : c ∈ Candidate.collect prefabs g.tail.prefab g.tail.used params (g.exhausted params)
      finalSlot) (hput : g.put? prefabs params c = some g') :
    ∃ t u, t.Follows prefabs params.axisMode c.anchorFace c.movingFace u ∧
      g' = ⟨u, t :: g.before, g.exhausted params⟩ ∧ u.used = u.ownFace ∧
      t.prefab = g.tail.prefab ∧ t.pose = g.tail.pose ∧ t.joint = g.tail.joint := by
  obtain ⟨_, _, -, -, -, ha, hfree, hm, -⟩ := Candidate.mem_collect.mp hc
  obtain ⟨p, q, hp, hq, hcompatible, rfl⟩ := put?_spec hput
  refine ⟨{ g.tail with used := g.tail.used ++ [c.anchorFace] },
    ⟨c.prefab, _, [c.movingFace], some (c.anchorFace, c.movingFace)⟩,
    ⟨rfl, ?_, ?_, p, q, hp, hq, ?_, rfl⟩, rfl, rfl, rfl, rfl, rfl⟩
  · exact congrArg (· ++ [c.anchorFace]) hused
  · rwa [hused] at hfree
  · exact TileShape.joins_iff.mpr ⟨ha, hm, hcompatible⟩

/-- **A step keeps the chain linked.** -/
theorem Growing.Linked.put {first : ChainTile α} (h : g.Linked prefabs params.axisMode first)
    (hc : c ∈ Candidate.collect prefabs g.tail.prefab g.tail.used params (g.exhausted params)
      finalSlot) (hput : g.put? prefabs params c = some g') :
    g'.Linked prefabs params.axisMode first := by
  obtain ⟨t, u, hfollows, rfl, hused, hprefab, hpose, hjoint⟩ := follows_put h.tail_used hc hput
  obtain ⟨hbefore, hchain⟩ := List.isChain_cons.mp (List.isChain_reverse.mp h.follows)
  refine ⟨List.isChain_reverse.mpr ?_, hused, ?_⟩
  · -- the old tail is joined at one face more, and follows the tile before it as it did
    refine List.isChain_cons_cons.mpr ⟨⟨_, _, hfollows⟩, List.isChain_cons.mpr ⟨?_, hchain⟩⟩
    intro b hb
    obtain ⟨a, m, hb⟩ := hbefore b hb
    exact ⟨a, m, hb.congr hprefab hpose hjoint⟩
  · -- it may be the first tile
    obtain ⟨t₀, hhead, hfirst⟩ := h.begins
    simp only [tiles, List.head?_reverse] at hhead ⊢
    rcases hb : g.before with - | ⟨b, bs⟩
    · rw [hb] at hhead
      obtain rfl : g.tail = t₀ := Option.some.inj hhead
      obtain ⟨hprefab₀, hpose₀, hjoint₀⟩ := hfirst
      exact ⟨t, rfl, hprefab.trans hprefab₀, hpose.trans hpose₀, hjoint.trans hjoint₀⟩
    · rw [hb] at hhead
      refine ⟨t₀, ?_, hfirst⟩
      simpa [List.getLast?_cons] using hhead

/-- Consecutive tiles follow each other. -/
theorem Growing.Linked.consecutive {mode : AxisMode} {first : ChainTile α}
    (h : g.Linked prefabs mode first) {i : Nat} {t u : ChainTile α} (ht : g.tiles[i]? = some t)
    (hu : g.tiles[i + 1]? = some u) : ∃ a m, t.Follows prefabs mode a m u := by
  obtain ⟨hi, rfl⟩ := List.getElem?_eq_some_iff.mp ht
  obtain ⟨hi', rfl⟩ := List.getElem?_eq_some_iff.mp hu
  exact List.isChain_iff_getElem.mp h.follows i hi'

/-- A tile is joined at its own face and at the one on which the next tile was put. -/
theorem Growing.Linked.used {mode : AxisMode} {first : ChainTile α}
    (h : g.Linked prefabs mode first) {i : Nat} {t : ChainTile α} (ht : g.tiles[i]? = some t) :
    t.used.Nodup ∧ t.used = t.ownFace ++
      ((g.tiles[i + 1]?.bind ChainTile.joint).map Prod.fst).toList := by
  have hown : t.ownFace.Nodup := by
    unfold ChainTile.ownFace
    cases t.joint <;> simp
  rcases hu : g.tiles[i + 1]? with - | u
  · -- there is no next tile, so that it is the tail
    have hlast : g.tail = t := by
      obtain ⟨hi, -⟩ := List.getElem?_eq_some_iff.mp ht
      have hle := List.getElem?_eq_none_iff.mp hu
      have hget : g.tiles.getLast? = some t := by
        rw [List.getLast?_eq_getElem?, ← ht]
        congr 1
        omega
      simpa [tiles] using hget
    have hused : t.used = t.ownFace := hlast ▸ h.tail_used
    rw [hused]
    exact ⟨hown, (List.append_nil _).symm⟩
  · obtain ⟨a, m, hfollows⟩ := h.consecutive ht hu
    rw [hfollows.used]
    refine ⟨List.nodup_append.mpr ⟨hown, List.nodup_singleton _, ?_⟩, ?_⟩
    · rintro f hf b hb rfl
      rw [List.mem_singleton.mp hb] at hf
      exact hfollows.free hf
    · simp [hfollows.joint]

/-- A chain of one tile. -/
theorem Growing.Linked.start {mode : AxisMode} {first : ChainTile α}
    (hused : first.used = first.ownFace) :
    (⟨first, [], []⟩ : Growing α).Linked prefabs mode first where
  follows := List.isChain_singleton _
  tail_used := hused
  begins := ⟨first, rfl, rfl, rfl, rfl⟩

/-- While no prefab is used twice, those of the tiles before the tail are spent. -/
structure Growing.Distinct (g : Growing α) : Prop where
  nodup : g.prefabs.Nodup
  spent : ∀ t ∈ g.before, t.prefab ∈ g.usedPrefabs

/-- A step does not use a prefab again. -/
theorem Growing.Distinct.put (hrepeats : params.allowRepeats = false) (h : g.Distinct)
    (hc : c ∈ Candidate.collect prefabs g.tail.prefab g.tail.used params (g.exhausted params)
      finalSlot) (hput : g.put? prefabs params c = some g') : g'.Distinct := by
  obtain ⟨_, _, -, -, hpermitted, -⟩ := Candidate.mem_collect.mp hc
  have hexhausted : g.exhausted params = g.tail.prefab :: g.usedPrefabs := by
    unfold exhausted
    rw [hrepeats]
    rfl
  have hunused : c.prefab ∉ g.exhausted params := by
    unfold Candidate.permitted at hpermitted
    simp only [hrepeats, Bool.false_or, Bool.and_eq_true, Bool.not_eq_true',
      List.contains_eq_mem, decide_eq_false_iff_not] at hpermitted
    exact hpermitted.1
  have hspent : ∀ t ∈ g.tail :: g.before, t.prefab ∈ g.exhausted params := by
    intro t ht
    rw [hexhausted]
    rcases List.mem_cons.mp ht with rfl | ht
    · exact List.mem_cons_self
    · exact List.mem_cons_of_mem _ (h.spent t ht)
  refine ⟨?_, ?_⟩
  · rw [prefabs_put hput]
    refine List.nodup_append.mpr ⟨h.nodup, List.nodup_singleton _, ?_⟩
    rintro p hp q hq rfl
    rw [List.mem_singleton.mp hq] at hp
    obtain ⟨t, ht, hprefab⟩ := List.mem_map.mp hp
    exact hunused (hprefab ▸ hspent t (List.mem_reverse.mp ht))
  · obtain ⟨_, _, -, -, -, rfl⟩ := put?_spec hput
    intro t ht
    rcases List.mem_cons.mp ht with rfl | ht
    · exact hspent g.tail List.mem_cons_self
    · exact hspent t (List.mem_cons_of_mem _ ht)

section Generation

variable [RandomSource ρ α]

/-- A chain that is generated has no tiles where none are wanted, and otherwise it is
linked from its first tile on. -/
theorem generate_linked {s : ρ} {ch : Chain α} (h : (generate prefabs params s).1 = .ok ch) :
    (params.count = 0 ∧ ch = ⟨[], 0⟩) ∨
    (params.count ≠ 0 ∧ ∃ g : Growing α,
      ch = ⟨g.tiles, heightOf params.axisMode (heights prefabs g.tiles)⟩ ∧
      g.Linked prefabs params.axisMode (firstTile prefabs.size params s).1 ∧
      g.tiles.length ≤ params.count ∧ (params.allowRepeats = false → g.Distinct)) := by
  rcases generate_cases prefabs params s with ⟨-, e, he⟩ | ⟨-, ⟨hnone, hempty⟩ |
    ⟨hcount, first, s₁, g, s₂, hfirst, hgrow, hgenerate⟩⟩
  · rw [he] at h
    cases h
  · rw [hempty] at h
    exact .inl ⟨hnone, (Except.ok.inj h).symm⟩
  · rw [hgenerate] at h
    obtain ⟨pose, hspec, -⟩ := firstTile_spec (α := α) prefabs.size params s
    rw [hfirst] at hspec ⊢
    have hg : g = (grow prefabs params (params.count - 1) ⟨first, [], []⟩ s₁).1 := by rw [hgrow]
    refine .inr ⟨hcount, g, (Except.ok.inj h).symm, ?_, ?_, ?_⟩
    · rw [hg]
      refine grow_keeps Growing.Linked.put _ (Growing.Linked.start ?_) s₁
      obtain rfl : first = _ := hspec
      rfl
    · have hle := length_grow_le prefabs params (params.count - 1) ⟨first, [], []⟩ s₁
      have hone : (⟨first, [], []⟩ : Growing α).tiles.length = 1 := rfl
      rw [hg]
      omega
    · intro hrepeats
      rw [hg]
      have hstart : (⟨first, [], []⟩ : Growing α).Distinct :=
        ⟨List.nodup_singleton _, fun _ ht => nomatch ht⟩
      exact grow_keeps (Growing.Distinct.put hrepeats) _ hstart s₁

/-! ### Well-formed chains -/

/-- A chain has tiles enough, begins as it should, and is joined face to face. -/
structure WellFormed (prefabs : Array (TileShape α)) (params : ChainParams) (ch : Chain α) :
    Prop where
  /-- It has at most as many tiles as are wanted. -/
  length_le : ch.tiles.length ≤ params.count
  /-- It has none only if none are wanted. -/
  eq_nil_iff : ch.tiles = [] ↔ params.count = 0
  /-- It begins with the prefab that is named, if one is, and the first tile was put on nothing. -/
  first : ∀ t, ch.tiles.head? = some t → t.joint = none ∧ ∀ i, params.first = some i → t.prefab = i
  /-- Every other tile was put on the one before it, at faces that are put together. -/
  joined : ∀ i t u, ch.tiles[i]? = some t → ch.tiles[i + 1]? = some u → ∃ a m p q,
    u.joint = some (a, m) ∧ prefabs[t.prefab]? = some p ∧ prefabs[u.prefab]? = some q ∧
      TileShape.Joins params.axisMode p a q m
  /-- The faces at which a tile is joined are its own and that on which the next tile
  was put, and these are two. -/
  used : ∀ i t, ch.tiles[i]? = some t → t.used.Nodup ∧
    t.used = (t.joint.map Prod.snd).toList ++
      ((ch.tiles[i + 1]?.bind ChainTile.joint).map Prod.fst).toList
  /-- No prefab occurs twice unless repetition is allowed. -/
  distinct : params.allowRepeats = false → (ch.tiles.map ChainTile.prefab).Nodup

omit [RandomSource ρ α] in
/-- The chain of no tiles is well formed where none are wanted. -/
theorem wellFormed_nil (hnone : params.count = 0) :
    (⟨[], 0⟩ : Chain α).WellFormed prefabs params where
  length_le := Nat.zero_le _
  eq_nil_iff := iff_of_true rfl hnone
  first := fun _ ht => nomatch ht
  joined := fun _ _ _ ht => nomatch ht
  used := fun _ _ ht => nomatch ht
  distinct := fun _ => List.nodup_nil

/-- A chain that is linked from a first tile on is well formed. -/
theorem Growing.Linked.wellFormed {s : ρ} {height : α}
    (h : g.Linked prefabs params.axisMode (firstTile prefabs.size params s).1)
    (hcount : params.count ≠ 0) (hle : g.tiles.length ≤ params.count)
    (hdistinct : params.allowRepeats = false → g.Distinct) :
    (⟨g.tiles, height⟩ : Chain α).WellFormed prefabs params where
  length_le := hle
  eq_nil_iff := iff_of_false (by simp [tiles]) hcount
  first := by
    intro t ht
    obtain ⟨pose, hfirst, -⟩ := firstTile_spec (α := α) prefabs.size params s
    obtain ⟨t₀, ht₀, hprefab, -, hjoint⟩ := h.begins
    obtain rfl : t₀ = t := Option.some.inj (ht₀.symm.trans ht)
    rw [hfirst] at hprefab hjoint
    refine ⟨hjoint, ?_⟩
    intro i hi
    rw [hprefab, hi]
    rfl
  joined := by
    intro i t u ht hu
    obtain ⟨a, m, hfollows⟩ := h.consecutive ht hu
    obtain ⟨p, q, hp, hq, hjoins, -⟩ := hfollows.shapes
    exact ⟨a, m, p, q, hfollows.joint, hp, hq, hjoins⟩
  used := fun _ _ ht => h.used ht
  distinct := fun hrepeats => (hdistinct hrepeats).nodup

/-- Generation fails exactly if the parameters are refused. -/
theorem generate_error_iff {s : ρ} :
    (∃ e, (generate prefabs params s).1 = .error e) ↔ Refused prefabs.size params := by
  rcases generate_cases prefabs params s with ⟨hrefused, e, he⟩ | ⟨hpassed, ⟨-, hempty⟩ |
    ⟨-, first, s₁, g, s₂, -, -, hgenerate⟩⟩
  · exact iff_of_true ⟨e, by rw [he]⟩ hrefused
  · exact iff_of_false (by simp [hempty]) hpassed
  · exact iff_of_false (by simp [hgenerate]) hpassed

/-- **Every chain that is generated is well formed**, and generation fails exactly if it is refused,
in which case nothing is drawn. -/
theorem generate_wellFormed (prefabs : Array (TileShape α)) (params : ChainParams) (s : ρ) :
    (∀ ch, (generate prefabs params s).1 = .ok ch → ch.WellFormed prefabs params) ∧
    ((∃ e, (generate prefabs params s).1 = .error e) ↔
      0 < params.count ∧ (prefabs.size = 0 ∨ (∃ i, params.first = some i ∧ prefabs.size ≤ i) ∨
        ∃ i, params.last = some i ∧ prefabs.size ≤ i)) ∧
    ∀ e, (generate prefabs params s).1 = .error e → (generate prefabs params s).2 = s := by
  refine ⟨?_, ?_, ?_⟩
  · intro ch hch
    rcases generate_linked hch with ⟨hnone, rfl⟩ | ⟨hcount, g, rfl, hlinked, hle, hdistinct⟩
    · exact wellFormed_nil hnone
    · exact hlinked.wellFormed hcount hle hdistinct
  · rw [Nat.pos_iff_ne_zero]
    exact generate_error_iff
  · intro e he
    rcases generate_cases prefabs params s with ⟨-, e', hrefused⟩ | ⟨hpassed, -⟩
    · rw [hrefused]
    · exact absurd (generate_error_iff.mp ⟨e, he⟩) hpassed

end Generation

end Chain

/-- A tile that can be joined at every face to its like. -/
def TileShape.uniform [Scalar α] (size : Vec3 α) : TileShape α := ⟨size, ⟨1, 1, 1, 1, 1, 1⟩, .zero⟩

/-- Which prefabs a chain is made of, and at which faces they are joined. -/
def Chain.plan (ch : Chain α) : List (Nat × Option (Face × Face)) :=
  ch.tiles.map fun t => (t.prefab, t.joint)

theorem Chain.exists_plan {r : Except ChainError (Chain α)}
    {plan : List (Nat × Option (Face × Face))} (h : r.toOption.map Chain.plan = some plan) :
    ∃ ch, r = .ok ch ∧ ch.plan = plan := by
  obtain ⟨ch, hch, hplan⟩ := Option.map_eq_some_iff.mp h
  cases r with
  | error e => cases hch
  | ok ch' => exact ⟨ch', rfl, Option.some.inj hch ▸ hplan⟩

/-- A stack of three tiles, no two of one prefab. -/
theorem Chain.generate_wellFormed_stack : ∃ ch,
    (generate #[.uniform .one, .uniform ⟨1, 2, 1⟩, .uniform ⟨1, 3, 1⟩]
      ⟨3, .y, some 1, none, false, true⟩ Halves.half).1 = .ok ch ∧
    ch.plan = [(1, none), (0, some (.yPos, .yNeg)), (2, some (.yPos, .yNeg))] ∧
    ch.WellFormed #[.uniform .one, .uniform ⟨1, 2, 1⟩, .uniform ⟨1, 3, 1⟩]
      ⟨3, .y, some 1, none, false, true⟩ := by
  obtain ⟨ch, hch, hplan⟩ := exists_plan (by decide +kernel :
    (generate #[.uniform .one, .uniform ⟨1, 2, 1⟩, .uniform ⟨1, 3, 1⟩]
      ⟨3, .y, some 1, none, false, true⟩ Halves.half).1.toOption.map plan =
      some [(1, none), (0, some (.yPos, .yNeg)), (2, some (.yPos, .yNeg))])
  exact ⟨ch, hch, hplan, (generate_wellFormed _ _ _).1 ch hch⟩

end SpatialGrammar
