/-
SpatialGrammar/Proofs/CandidateSearch.lean

The search for ways to continue a chain.

What may be put on a tail is said by `Candidate.Admissible`, without a word about how it is
searched for.  The search lists exactly this, and nothing twice (`Candidate.mem_collect_iff`,
`Candidate.nodup_collect`): its three loops run over lists without repetition, and a
candidate tells at which turn of each loop it was met.

So a chain stops early for one reason only.  From a list that is not empty a candidate is
drawn, provided that the source keeps to its bounds, and what is drawn can be put on, since
the search has asked of it all that a placement asks (`Chain.Growing.exists_put`).  What is
left is an empty list, and it is empty because nothing is admissible.
-/
import SpatialGrammar.Proofs.ChainLinkage
import SpatialGrammar.Proofs.IndexDraws

namespace SpatialGrammar

variable {α ρ : Type}

/-! ### Admissible candidates -/

/-- The candidate may be put on a tail: it is joined at a face of the tail that is free, and its
prefab is neither spent nor out of place. -/
structure Candidate.Admissible (prefabs : Array (TileShape α)) (params : ChainParams)
    (tailPrefab : Nat) (tailUsed : List Face) (usedPrefabs : List Nat) (finalSlot : Bool)
    (c : Candidate) : Prop where
  /-- The two faces are put together. -/
  joins : ∃ p q, prefabs[tailPrefab]? = some p ∧ prefabs[c.prefab]? = some q ∧
    TileShape.Joins params.axisMode p c.anchorFace q c.movingFace
  /-- Nothing has been put on the face of the tail. -/
  free : c.anchorFace ∉ tailUsed
  /-- Unless repetition is allowed, the prefab has not been used. -/
  unused : params.allowRepeats = false → c.prefab ∉ usedPrefabs
  /-- A prefab that is kept for the last place is taken there, and nowhere else. -/
  reserved : ∀ l, params.last = some l → (finalSlot = true ↔ c.prefab = l)

/-- No mode names a face twice. -/
theorem AxisMode.nodup_anchorFaces (mode : AxisMode) : mode.anchorFaces.Nodup := by
  cases mode <;> decide

theorem AxisMode.nodup_movingFaces (mode : AxisMode) : mode.movingFaces.Nodup := by
  cases mode <;> decide

namespace Candidate

variable {prefabs : Array (TileShape α)} {params : ChainParams} {tailPrefab : Nat}
  {tailUsed : List Face} {usedPrefabs : List Nat} {finalSlot : Bool} {c : Candidate}

/-- What is admissible stays so if fewer prefabs are spent. -/
theorem Admissible.anti {usedPrefabs' : List Nat}
    (h : Admissible prefabs params tailPrefab tailUsed usedPrefabs finalSlot c)
    (hsub : ∀ i ∈ usedPrefabs', i ∈ usedPrefabs) :
    Admissible prefabs params tailPrefab tailUsed usedPrefabs' finalSlot c where
  joins := h.joins
  free := h.free
  unused hrepeats hc := h.unused hrepeats (hsub c.prefab hc)
  reserved := h.reserved

theorem permitted_iff {prefab : Nat} : permitted params usedPrefabs finalSlot prefab = true ↔
    (params.allowRepeats = false → prefab ∉ usedPrefabs) ∧
      ∀ l, params.last = some l → (finalSlot = true ↔ prefab = l) := by
  unfold permitted
  rw [Bool.and_eq_true]
  apply and_congr
  · cases params.allowRepeats <;> simp
  · cases params.last with
    | none => simp
    | some l =>
      show (finalSlot == decide (prefab = l)) = true ↔ ∀ l', some l = some l' → _
      rw [beq_iff_eq, Bool.eq_iff_iff, decide_eq_true_iff]
      constructor
      · rintro h _ ⟨⟩
        exact h
      · exact fun h => h l rfl

/-- **The search finds what is admissible, and nothing else.** -/
theorem mem_collect_iff :
    c ∈ collect prefabs tailPrefab tailUsed params usedPrefabs finalSlot ↔
      Admissible prefabs params tailPrefab tailUsed usedPrefabs finalSlot c := by
  rw [mem_collect]
  constructor
  · rintro ⟨p, q, hp, hq, hpermitted, ha, hfree, hm, hcompatible⟩
    obtain ⟨hunused, hreserved⟩ := permitted_iff.mp hpermitted
    exact ⟨⟨p, q, hp, hq, TileShape.joins_iff.mpr ⟨ha, hm, hcompatible⟩⟩, hfree, hunused, hreserved⟩
  · rintro ⟨⟨p, q, hp, hq, hjoins⟩, hfree, hunused, hreserved⟩
    obtain ⟨ha, hm, hcompatible⟩ := TileShape.joins_iff.mp hjoins
    exact ⟨p, q, hp, hq, permitted_iff.mpr ⟨hunused, hreserved⟩, ha, hfree, hm, hcompatible⟩

/-- **The search finds nothing twice.** -/
theorem nodup_collect :
    (collect prefabs tailPrefab tailUsed params usedPrefabs finalSlot).Nodup := by
  unfold collect
  split
  · exact List.nodup_nil
  next tail _ =>
  -- a candidate has the anchor face of its turn of the first loop, and the prefab of its turn of
  -- the second one, so that no two turns of a loop give the same one
  refine List.nodup_flatMap.mpr ⟨fun a _ => List.nodup_flatMap.mpr ⟨?_, ?_⟩, ?_⟩
  · rintro ⟨shape, prefab⟩ -
    refine (params.axisMode.nodup_movingFaces.filter _).map ?_
    exact fun m m' heq => congrArg movingFace heq
  · have hplaces : prefabs.toList.zipIdx.Pairwise fun x y => x.2 ≠ y.2 :=
      List.pairwise_map.mp (List.nodup_zipIdx_map_snd prefabs.toList)
    refine (hplaces.filter _).imp fun hne => ?_
    intro c hc hc'
    obtain ⟨m, -, rfl⟩ := List.mem_map.mp hc
    obtain ⟨m', -, heq⟩ := List.mem_map.mp hc'
    exact hne (congrArg prefab heq).symm
  · refine (params.axisMode.nodup_anchorFaces.filter _).imp fun hne => ?_
    intro c hc hc'
    obtain ⟨_, -, hc⟩ := List.mem_flatMap.mp hc
    obtain ⟨_, -, hc'⟩ := List.mem_flatMap.mp hc'
    obtain ⟨m, -, rfl⟩ := List.mem_map.mp hc
    obtain ⟨m', -, heq⟩ := List.mem_map.mp hc'
    exact hne (congrArg anchorFace heq).symm

/-- The faces that occur are those of the candidates. -/
theorem mem_anchorFaces {candidates : List Candidate} {f : Face} :
    f ∈ anchorFaces candidates ↔ ∃ c ∈ candidates, c.anchorFace = f := by
  have hall : f ∈ Face.all := by cases f <;> decide
  simp only [anchorFaces, List.mem_filter, hall, true_and, List.any_eq_true, decide_eq_true_eq]

/-- At a face that occurs there is a candidate. -/
theorem atFace_ne_nil {candidates : List Candidate} {f : Face} (hf : f ∈ anchorFaces candidates) :
    atFace candidates f ≠ [] := by
  obtain ⟨c, hc, heq⟩ := mem_anchorFaces.mp hf
  exact List.ne_nil_of_mem (List.mem_filter.mpr ⟨hc, decide_eq_true heq⟩)

variable [RandomSource ρ α]

/-- What is drawn is told by the two indices that the source gives. -/
theorem pick_eq {candidates : List Candidate} {s s₁ s₂ : ρ} {i j : Nat}
    (hi : RandomSource.nextIndex (anchorFaces candidates).length s = (i, s₁))
    (hlt : i < (anchorFaces candidates).length)
    (hj : RandomSource.nextIndex (atFace candidates (anchorFaces candidates)[i]).length s₁ =
      (j, s₂))
    (hlt' : j < (atFace candidates (anchorFaces candidates)[i]).length) :
    pick candidates s = (some (atFace candidates (anchorFaces candidates)[i])[j], s₂) := by
  have hne : anchorFaces candidates ≠ [] := List.ne_nil_of_length_pos (Nat.zero_lt_of_lt hlt)
  unfold pick
  simp only [if_neg hne, hi, List.getElem?_eq_getElem hlt, hj, List.getElem?_eq_getElem hlt']

/-- From a list that is not empty a candidate is drawn, if the source keeps to its bounds. -/
theorem exists_of_pick (hρ : RandomSource.InBounds ρ) {candidates : List Candidate}
    (hc : c ∈ candidates) (s : ρ) : ∃ c' s', pick candidates s = (some c', s') := by
  have hne := List.ne_nil_of_mem (mem_anchorFaces.mpr ⟨c, hc, rfl⟩)
  rcases hi : RandomSource.nextIndex (anchorFaces candidates).length s with ⟨i, s₁⟩
  have hlt := hρ.lt_length hne hi
  rcases hj : RandomSource.nextIndex (atFace candidates (anchorFaces candidates)[i]).length s₁
    with ⟨j, s₂⟩
  have hlt' := hρ.lt_length (atFace_ne_nil (List.getElem_mem hlt)) hj
  exact ⟨_, s₂, pick_eq hi hlt hj hlt'⟩

end Candidate

/-! ### Growth that ends early -/

namespace Chain

variable [Scalar α] {prefabs : Array (TileShape α)} {params : ChainParams}

/-- **What the search has found can be put on.** -/
theorem Growing.exists_put {g : Growing α} {usedPrefabs : List Nat} {finalSlot : Bool}
    {c : Candidate}
    (hc : c ∈ Candidate.collect prefabs g.tail.prefab g.tail.used params usedPrefabs finalSlot) :
    ∃ p q pose g', prefabs[g.tail.prefab]? = some p ∧ prefabs[c.prefab]? = some q ∧
      StandingTile.place ⟨p, g.tail.pose⟩ c.anchorFace ⟨q, .identity⟩ c.movingFace
        params.axisMode = .ok pose ∧
      g.put? prefabs params c = some g' := by
  obtain ⟨p, q, hp, hq, -, -, -, -, hcompatible⟩ := Candidate.mem_collect.mp hc
  have hplace : StandingTile.place ⟨p, g.tail.pose⟩ c.anchorFace ⟨q, .identity⟩ c.movingFace
      params.axisMode = .ok (StandingTile.align ⟨p, g.tail.pose⟩ c.anchorFace ⟨q, .identity⟩
        c.movingFace params.axisMode) := if_pos hcompatible
  have hput : (g.put? prefabs params c).isSome = true := by
    unfold put?
    simp [hp, hq, hplace, Except.toOption]
  obtain ⟨g', hg'⟩ := Option.isSome_iff_exists.mp hput
  exact ⟨p, q, _, g', hp, hq, hplace, hg'⟩

/-- No prefab is spent but those of the tiles before the tail. -/
def Growing.SpentUsed (g : Growing α) : Prop :=
  ∀ i ∈ g.usedPrefabs, i ∈ g.before.map ChainTile.prefab

omit [Scalar α] in
/-- Then none is spent for the next place but those of the tiles. -/
theorem Growing.SpentUsed.mem_prefabs {g : Growing α} (h : g.SpentUsed) {i : Nat}
    (hi : i ∈ g.exhausted params) : i ∈ (g.tail :: g.before).map ChainTile.prefab := by
  rw [List.map_cons]
  unfold exhausted at hi
  split at hi
  · exact List.mem_cons_of_mem _ (h i hi)
  · rcases List.mem_cons.mp hi with rfl | hi
    · exact List.mem_cons_self
    · exact List.mem_cons_of_mem _ (h i hi)

theorem Growing.SpentUsed.put {g g' : Growing α} {c : Candidate} (h : g.SpentUsed)
    (hput : g.put? prefabs params c = some g') : g'.SpentUsed := by
  obtain ⟨_, _, -, -, -, rfl⟩ := put?_spec hput
  exact fun i hi => h.mem_prefabs hi

variable [RandomSource ρ α]

/-- A step goes on as long as there is a candidate. -/
theorem grow_goes_on (hρ : RandomSource.InBounds ρ) {wanted : Nat} {g : Growing α} {s : ρ}
    (hne : Candidate.collect prefabs g.tail.prefab g.tail.used params (g.exhausted params)
      (decide (wanted = 0)) ≠ []) :
    ∃ c g' s', g.put? prefabs params c = some g' ∧
      grow prefabs params (wanted + 1) g s = grow prefabs params wanted g' s' := by
  obtain ⟨c₀, hc₀⟩ := List.exists_mem_of_ne_nil _ hne
  obtain ⟨c, s', hpick⟩ := Candidate.exists_of_pick hρ hc₀ s
  have hc := Candidate.mem_of_pick (congrArg Prod.fst hpick)
  obtain ⟨-, -, -, g', -, -, -, hput⟩ := Growing.exists_put hc
  refine ⟨c, g', s', hput, ?_⟩
  rw [grow]
  simp only [hpick, hput]

/-- **Growth that falls short has come to a tail on which nothing can be put.** -/
theorem collect_eq_nil_of_grow (hρ : RandomSource.InBounds ρ) (wanted : Nat) (g : Growing α) (s : ρ)
    {g' : Growing α} (hg' : (grow prefabs params wanted g s).1 = g')
    (hshort : g'.tiles.length < g.tiles.length + wanted) :
    Candidate.collect prefabs g'.tail.prefab g'.tail.used params (g'.exhausted params)
      (decide (g'.tiles.length + 1 = g.tiles.length + wanted)) = [] := by
  -- on the number of tiles still wanted; the place that is tried for is the last one at zero
  induction wanted generalizing g s with
  | zero =>
    obtain rfl : g = g' := hg'
    exact absurd hshort (Nat.lt_irrefl _)
  | succ wanted ih =>
    by_cases hnil : Candidate.collect prefabs g.tail.prefab g.tail.used params (g.exhausted params)
        (decide (wanted = 0)) = []
    · -- the growth ends here, one tile before the place for which nothing was found
      have hends : (grow prefabs params (wanted + 1) g s).1 = g := by
        rcases grow_cases prefabs params wanted g s with hends | ⟨c, -, -, hc, -, -⟩
        · exact hends
        · rw [hnil] at hc
          cases hc
      obtain rfl : g = g' := hends.symm.trans hg'
      rw [← hnil]
      congr 1
      simp
    · obtain ⟨c, g₁, s₁, hput, hgrow⟩ := grow_goes_on hρ hnil
      have hlength : g₁.tiles.length = g.tiles.length + 1 := by
        simpa [Growing.prefabs] using congrArg List.length (Growing.prefabs_put hput)
      rw [hgrow] at hg'
      have hih := ih g₁ s₁ hg' (by omega)
      rwa [hlength,
        show g.tiles.length + 1 + wanted = g.tiles.length + (wanted + 1) by omega] at hih

/-- **The search for candidates is exact, and a chain ends early only where nothing is admissible.**
Every admissible candidate is listed once and nothing else is; where a chain that has been generated
has fewer tiles than are wanted, nothing is admissible at its last tile for the next place; and what
is drawn while it grows can always be put on. -/
theorem generate_exhaustive (prefabs : Array (TileShape α)) (params : ChainParams) :
    (∀ tailPrefab tailUsed usedPrefabs finalSlot,
      (Candidate.collect prefabs tailPrefab tailUsed params usedPrefabs finalSlot).Nodup ∧
      ∀ c, c ∈ Candidate.collect prefabs tailPrefab tailUsed params usedPrefabs finalSlot ↔
        Candidate.Admissible prefabs params tailPrefab tailUsed usedPrefabs finalSlot c) ∧
    (RandomSource.InBounds ρ → ∀ (s : ρ) ch, (generate prefabs params s).1 = .ok ch →
      ch.tiles.length < params.count → ∃ last, ch.tiles.getLast? = some last ∧
        ∀ c, ¬ Candidate.Admissible prefabs params last.prefab last.used
          (ch.tiles.map ChainTile.prefab) (decide (ch.tiles.length + 1 = params.count)) c) ∧
    ∀ (g : Growing α) (finalSlot : Bool) (s : ρ) c,
      (Candidate.pick (Candidate.collect prefabs g.tail.prefab g.tail.used params
        (g.exhausted params) finalSlot) s).1 = some c →
      ∃ p q pose g', prefabs[g.tail.prefab]? = some p ∧ prefabs[c.prefab]? = some q ∧
        StandingTile.place ⟨p, g.tail.pose⟩ c.anchorFace ⟨q, .identity⟩ c.movingFace
          params.axisMode = .ok pose ∧
        g.put? prefabs params c = some g' := by
  refine ⟨fun _ _ _ _ => ⟨Candidate.nodup_collect, fun _ => Candidate.mem_collect_iff⟩, ?_, ?_⟩
  · intro hρ s ch hch hshort
    rcases generate_cases prefabs params s with ⟨-, e, he⟩ | ⟨-, ⟨hnone, -⟩ |
      ⟨hcount, first, s₁, g, s₂, -, hgrow, hgenerate⟩⟩
    · rw [he] at hch
      cases hch
    · rw [hnone] at hshort
      exact absurd hshort (Nat.not_lt_zero _)
    · rw [hgenerate] at hch
      obtain rfl := Except.ok.inj hch
      have hg : (grow prefabs params (params.count - 1) ⟨first, [], []⟩ s₁).1 = g := by rw [hgrow]
      have hone :
          (⟨first, [], []⟩ : Growing α).tiles.length + (params.count - 1) = params.count := by
        show 1 + _ = _
        omega
      have hnil := collect_eq_nil_of_grow hρ _ _ s₁ hg (by rwa [hone])
      -- the prefabs that the search has passed over are those of the tiles
      have hspent : g.SpentUsed := by
        rw [← hg]
        apply grow_keeps fun h _ hput => Growing.SpentUsed.put h hput
        exact fun _ hi => nomatch hi
      refine ⟨g.tail, by simp [Growing.tiles], ?_⟩
      intro c hc
      -- whatever is admissible would have been found
      have hadmissible : Candidate.Admissible prefabs params g.tail.prefab g.tail.used
          (g.exhausted params) (decide (g.tiles.length + 1 = params.count)) c :=
        hc.anti fun i hi => by simpa [Growing.tiles, or_comm] using hspent.mem_prefabs hi
      have hfound := Candidate.mem_collect_iff.mpr hadmissible
      rw [hone] at hnil
      rw [hnil] at hfound
      cases hfound
  · intro g finalSlot s c hpick
    exact Growing.exists_put (Candidate.mem_of_pick hpick)

end Chain

/-- Tiles of two sizes. -/
def Chain.twoSizes : Array (TileShape Float32) := #[.uniform .one, .uniform ⟨1, 2, 1⟩]

/-- A chain of three different tiles, which the first prefab begins and the second one ends. -/
def Chain.bothEndsSet : ChainParams := ⟨3, .y, some 0, some 1, false, false⟩

/-- Of the three tiles only the first is put down: for the second place one prefab is spent and the
other is kept. -/
theorem Chain.generate_exhaustive_bothEndsSet : ∃ ch,
    (generate twoSizes bothEndsSet Halves.half).1 = .ok ch ∧ ch.plan = [(0, none)] ∧
    ∃ last, ch.tiles.getLast? = some last ∧
      ∀ c, ¬ Candidate.Admissible twoSizes bothEndsSet last.prefab last.used
        (ch.tiles.map ChainTile.prefab) (decide (ch.tiles.length + 1 = 3)) c := by
  obtain ⟨ch, hch, hplan⟩ := exists_plan (by decide +kernel :
    (generate twoSizes bothEndsSet Halves.half).1.toOption.map plan = some [(0, none)])
  have hlength : ch.tiles.length = 1 := by simpa [plan] using congrArg List.length hplan
  refine ⟨ch, hch, hplan, ?_⟩
  apply (generate_exhaustive twoSizes bothEndsSet).2.1 Halves.inBounds Halves.half ch hch
  show ch.tiles.length < 3
  omega

end SpatialGrammar
