/-
SpatialGrammar/Proofs/ChainGrowth.lean

What growing a chain can do.

A step either ends the growth or puts on one of the candidates at the tail
(`Chain.grow_cases`), and what it puts on was permitted in its place
(`Candidate.mem_collect`).  What is said of chains elsewhere is derived from these two; the
order in which candidates are listed and the way in which one is drawn do not matter to it.

So a property of growing chains need only be kept by the candidates that are put on
(`Chain.grow_keeps`), and `Chain.generate_cases` says what is grown: nothing if the
parameters are refused, and otherwise what comes of the first tile.
-/
import SpatialGrammar.Tile.Chain

namespace SpatialGrammar

variable {α ρ : Type}

/-! ### Candidates -/

namespace Candidate

/-- **The candidates are the permitted prefabs with the pairs of faces that can be joined.** -/
theorem mem_collect {prefabs : Array (TileShape α)} {tailPrefab : Nat} {tailUsed : List Face}
    {params : ChainParams} {usedPrefabs : List Nat} {finalSlot : Bool} {c : Candidate} :
    c ∈ collect prefabs tailPrefab tailUsed params usedPrefabs finalSlot ↔
      ∃ tail shape, prefabs[tailPrefab]? = some tail ∧ prefabs[c.prefab]? = some shape ∧
        permitted params usedPrefabs finalSlot c.prefab ∧
        c.anchorFace ∈ params.axisMode.anchorFaces ∧ c.anchorFace ∉ tailUsed ∧
        c.movingFace ∈ params.axisMode.movingFaces ∧
        tail.faces.compatible c.anchorFace shape.faces c.movingFace := by
  unfold collect
  rcases htail : prefabs[tailPrefab]? with - | tail
  · simp
  -- a face that can be joined has an identifier, so that asking for one leaves out no candidate
  have hid : ∀ {a m : Face} {ids : FaceIds}, tail.faces.compatible a ids m →
      tail.faces.get a ≠ 0 := by
    intro a m ids hcompatible
    simp only [FaceIds.compatible, Bool.and_eq_true, decide_eq_true_eq] at hcompatible
    exact hcompatible.1.1
  simp only [List.mem_flatMap, List.mem_map, List.mem_filter, List.mem_zipIdx_iff_getElem?,
    Array.getElem?_toList, Prod.exists]
  constructor
  · rintro ⟨a, ⟨ha, hfree⟩, shape, prefab, ⟨hshape, hpermitted⟩, m, ⟨hm, hcompatible⟩, rfl⟩
    simp only [Bool.and_eq_true, Bool.not_eq_true', List.contains_eq_mem,
      decide_eq_false_iff_not] at hfree
    exact ⟨tail, shape, rfl, hshape, hpermitted, ha, hfree.1, hm, hcompatible⟩
  · rintro ⟨_, shape, ⟨⟩, hshape, hpermitted, ha, hfree, hm, hcompatible⟩
    refine ⟨c.anchorFace, ⟨ha, ?_⟩, shape, c.prefab, ⟨hshape, hpermitted⟩, c.movingFace,
      ⟨hm, hcompatible⟩, rfl⟩
    simp [hfree, hid hcompatible]

variable [RandomSource ρ α]

/-- What is drawn is one of the candidates. -/
theorem mem_of_pick {candidates : List Candidate} {s : ρ} {c : Candidate}
    (h : (pick candidates s).1 = some c) : c ∈ candidates := by
  unfold pick at h
  dsimp only at h
  split at h
  · cases h
  · split at h
    · cases h
    · exact (List.mem_filter.mp (List.mem_of_getElem? h)).1

end Candidate

/-! ### Steps -/

namespace Chain

variable [Scalar α]

/-- The prefabs of the tiles, in order. -/
def Growing.prefabs (g : Growing α) : List Nat := g.tiles.map ChainTile.prefab

/-- What is left of a chain when a candidate has been put on: it is the tail, and the tile before it
is joined at one face more. -/
theorem Growing.put?_spec {prefabs : Array (TileShape α)} {params : ChainParams}
    {g g' : Growing α} {c : Candidate} (h : g.put? prefabs params c = some g') :
    ∃ p q, prefabs[g.tail.prefab]? = some p ∧ prefabs[c.prefab]? = some q ∧
      p.faces.compatible c.anchorFace q.faces c.movingFace = true ∧
      g' = ⟨⟨c.prefab, StandingTile.align ⟨p, g.tail.pose⟩ c.anchorFace ⟨q, .identity⟩ c.movingFace
            params.axisMode, [c.movingFace], some (c.anchorFace, c.movingFace)⟩,
          { g.tail with used := g.tail.used ++ [c.anchorFace] } :: g.before,
          g.exhausted params⟩ := by
  unfold put? at h
  simp only [Option.bind_eq_bind, Option.bind_eq_some_iff, Option.pure_def, Option.some.injEq] at h
  obtain ⟨p, hp, q, hq, pose, hpose, rfl⟩ := h
  unfold StandingTile.place at hpose
  split at hpose
  · next hcompatible =>
    obtain rfl := Option.some.inj hpose
    exact ⟨p, q, hp, hq, hcompatible, rfl⟩
  · cases hpose

/-- A candidate that is put on stands after all others. -/
theorem Growing.prefabs_put {prefabs : Array (TileShape α)} {params : ChainParams}
    {g g' : Growing α} {c : Candidate} (h : g.put? prefabs params c = some g') :
    g'.prefabs = g.prefabs ++ [c.prefab] := by
  obtain ⟨_, _, -, -, -, rfl⟩ := put?_spec h
  simp [Growing.prefabs, tiles]

variable [RandomSource ρ α]

/-- The tiles that are still wanted are put on one after another, and the growth ends early where
no candidate is drawn or the one that is drawn cannot be put on. -/
theorem grow_cases (prefabs : Array (TileShape α)) (params : ChainParams) (wanted : Nat)
    (g : Growing α) (s : ρ) :
    (grow prefabs params (wanted + 1) g s).1 = g ∨
      ∃ c g' s',
        c ∈ Candidate.collect prefabs g.tail.prefab g.tail.used params (g.exhausted params)
          (decide (wanted = 0)) ∧
        g.put? prefabs params c = some g' ∧
        grow prefabs params (wanted + 1) g s = grow prefabs params wanted g' s' := by
  rw [grow]
  split
  · exact .inl rfl
  · next c s' hpick =>
    split
    · exact .inl rfl
    · next g' hput =>
      exact .inr ⟨c, g', s', Candidate.mem_of_pick (congrArg Prod.fst hpick), hput, rfl⟩

/-- **What every candidate that is put on keeps, growing keeps.** -/
theorem grow_keeps {prefabs : Array (TileShape α)} {params : ChainParams} {P : Growing α → Prop}
    (hput : ∀ {g g' : Growing α} {c : Candidate} {finalSlot : Bool}, P g →
      c ∈ Candidate.collect prefabs g.tail.prefab g.tail.used params (g.exhausted params)
        finalSlot →
      g.put? prefabs params c = some g' → P g')
    (wanted : Nat) {g : Growing α} (hg : P g) (s : ρ) : P (grow prefabs params wanted g s).1 := by
  induction wanted generalizing g s with
  | zero => exact hg
  | succ wanted ih =>
    rcases grow_cases prefabs params wanted g s with hends | ⟨c, g', s', hc, hg', hgrow⟩
    · rw [hends]
      exact hg
    · rw [hgrow]
      exact ih (hput hg hc hg') s'

/-- At most as many tiles are put on as are wanted. -/
theorem length_grow_le (prefabs : Array (TileShape α)) (params : ChainParams) (wanted : Nat)
    (g : Growing α) (s : ρ) :
    (grow prefabs params wanted g s).1.tiles.length ≤ g.tiles.length + wanted := by
  induction wanted generalizing g s with
  | zero => exact Nat.le_refl _
  | succ wanted ih =>
    rcases grow_cases prefabs params wanted g s with hends | ⟨c, g', s', -, hput, hgrow⟩
    · rw [hends]
      exact Nat.le_add_right _ _
    · have hlength : g'.tiles.length = g.tiles.length + 1 := by
        simpa [Growing.prefabs] using congrArg List.length (Growing.prefabs_put hput)
      have hle := ih g' s'
      rw [hgrow]
      omega

/-! ### Beginnings -/

/-- The first tile is of the prefab that is named, or else of the one that is drawn.  It stands at
the origin, may be turned by quarter turns, and is joined to nothing. -/
theorem firstTile_spec (count : Nat) (params : ChainParams) (s : ρ) :
    ∃ pose : Transform α,
      (firstTile count params s).1 =
        ⟨params.first.getD (RandomSource.nextIndex count s).1, pose, [], none⟩ ∧
      (pose = .identity ∨ ∃ turns : Nat,
        pose = { (Transform.identity : Transform α) with
          rotation := .ofYaw ((turns : α) * ((90 : Nat) : α)) }) := by
  unfold firstTile
  cases params.first <;> dsimp only <;> split
  · exact ⟨_, rfl, .inr ⟨_, rfl⟩⟩
  · exact ⟨_, rfl, .inl rfl⟩
  · exact ⟨_, rfl, .inr ⟨_, rfl⟩⟩
  · exact ⟨_, rfl, .inl rfl⟩

theorem firstTile_prefab (count : Nat) (params : ChainParams) (s : ρ) :
    (firstTile count params s : ChainTile α × ρ).1.prefab =
      params.first.getD (RandomSource.nextIndex count s).1 := by
  obtain ⟨pose, h, -⟩ := firstTile_spec (α := α) count params s
  rw [h]

/-- The parameters by which no chain can be grown: tiles are wanted, and there is no prefab, or one
that is named does not exist. -/
def Refused (count : Nat) (params : ChainParams) : Prop :=
  params.count ≠ 0 ∧ (count = 0 ∨ (∃ i, params.first = some i ∧ count ≤ i) ∨
    ∃ i, params.last = some i ∧ count ≤ i)

omit [RandomSource ρ α] [Scalar α] in
theorem checkIndex_eq_ok_iff {role : String} {index : Option Nat} {count : Nat} :
    checkIndex role index count = .ok () ↔ ¬ ∃ i, index = some i ∧ count ≤ i := by
  cases index with
  | none => simp [checkIndex]
  | some i =>
    unfold checkIndex
    by_cases hi : i < count <;> simp [hi]

omit [RandomSource ρ α] [Scalar α] in
/-- The check passes all other parameters. -/
theorem check_eq_ok_iff {count : Nat} {params : ChainParams} :
    check count params = .ok () ↔ ¬ Refused count params := by
  unfold check Refused
  split
  · next hcount => simp [hcount]
  · next hcount =>
    split
    · next hempty => simp [hcount, hempty]
    · next hempty =>
      have hbind (x y : Except ChainError Unit) :
          (do x; y) = .ok () ↔ x = .ok () ∧ y = .ok () := by
        rcases x with _ | ⟨⟩ <;> simp [bind, Except.bind]
      rw [hbind, checkIndex_eq_ok_iff, checkIndex_eq_ok_iff]
      simp only [hcount, hempty, ne_eq, not_false_eq_true, true_and, false_or, not_or]

/-- The heights of the tiles of a chain, as far as their prefabs exist. -/
def heights (prefabs : Array (TileShape α)) (tiles : List (ChainTile α)) : List α :=
  tiles.filterMap fun t => (prefabs[t.prefab]?).map fun p => p.size.y

/-- What generating comes to: a refusal, which draws nothing, or no tiles where none are wanted, or
a chain grown from its first tile. -/
theorem generate_cases (prefabs : Array (TileShape α)) (params : ChainParams) (s : ρ) :
    (Refused prefabs.size params ∧ ∃ e, generate prefabs params s = (.error e, s)) ∨
    (¬ Refused prefabs.size params ∧
      ((params.count = 0 ∧ generate prefabs params s = (.ok ⟨[], 0⟩, s)) ∨
      (params.count ≠ 0 ∧ ∃ first s₁ g s₂, firstTile prefabs.size params s = (first, s₁) ∧
        grow prefabs params (params.count - 1) ⟨first, [], []⟩ s₁ = (g, s₂) ∧
        generate prefabs params s =
          (.ok ⟨g.tiles, heightOf params.axisMode (heights prefabs g.tiles)⟩, s₂)))) := by
  unfold generate
  rcases hcheck : check prefabs.size params with e | ⟨⟩
  · refine .inl ⟨Classical.not_not.mp fun hrefused => ?_, e, rfl⟩
    rw [check_eq_ok_iff.mpr hrefused] at hcheck
    cases hcheck
  · refine .inr ⟨check_eq_ok_iff.mp hcheck, ?_⟩
    dsimp only
    split
    · next hcount => exact .inl ⟨hcount, rfl⟩
    · next hcount => exact .inr ⟨hcount, _, _, _, _, rfl, rfl, rfl⟩

/-- **Parameters whose prefabs exist give a chain**, which is grown from its first tile. -/
theorem generate_eq {prefabs : Array (TileShape α)} {params : ChainParams}
    (hcount : params.count ≠ 0) (hprefabs : prefabs.size ≠ 0)
    (hfirst : ∀ i, params.first = some i → i < prefabs.size)
    (hlast : ∀ i, params.last = some i → i < prefabs.size) (s : ρ) :
    ∃ c s', generate prefabs params s = (.ok c, s') ∧
      ∃ first s₁, firstTile prefabs.size params s = (first, s₁) ∧
        c.tiles = (grow prefabs params (params.count - 1) ⟨first, [], []⟩ s₁).1.tiles := by
  rcases generate_cases prefabs params s with ⟨hrefused, -⟩ | ⟨-, ⟨hnone, -⟩ |
    ⟨-, first, s₁, g, s₂, hfirstTile, hgrow, hgenerate⟩⟩
  · obtain ⟨-, hempty | ⟨i, hi, hle⟩ | ⟨i, hi, hle⟩⟩ := hrefused
    · exact absurd hempty hprefabs
    · exact absurd (hfirst i hi) (Nat.not_lt.mpr hle)
    · exact absurd (hlast i hi) (Nat.not_lt.mpr hle)
  · exact absurd hnone hcount
  · exact ⟨_, s₂, hgenerate, first, s₁, hfirstTile, by rw [hgrow]⟩

end Chain

end SpatialGrammar
