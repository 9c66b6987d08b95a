/-
SpatialGrammar/Proofs/FinalSlot.lean

Whether the prefab that is kept for the last place of a chain stays out of the others.

The places after the first are filled by candidates, and the reserved prefab is a
candidate in the last place, where no other is, and nowhere else (`Chain.grow_reserved`).
The first place is filled without asking.  If its prefab is named, it is known not to be
the reserved one; if it is drawn, every prefab may come out.  So the reservation is kept
exactly if the draw does not happen to give the reserved prefab
(`Chain.generate_reserved_iff`).
-/
import SpatialGrammar.Proofs.ChainGrowth
import SpatialGrammar.Proofs.Selection
import SpatialGrammar.Random.Replay

namespace SpatialGrammar

variable {α ρ : Type}

/-- Only the prefab reserved for it is permitted in the last place, and it is permitted nowhere
else. -/
theorem Candidate.eq_last_iff {params : ChainParams} {usedPrefabs : List Nat} {finalSlot : Bool}
    {prefab l : Nat} (hlast : params.last = some l)
    (h : permitted params usedPrefabs finalSlot prefab) : prefab = l ↔ finalSlot = true := by
  unfold permitted at h
  simp only [hlast, Bool.and_eq_true, beq_iff_eq] at h
  rw [h.2, decide_eq_true_iff]

namespace Chain

/-- The prefab stands in the last of `count` places if anywhere, and a chain of that length ends
with it. -/
structure Reserved (c : Chain α) (prefab count : Nat) : Prop where
  only_last : ∀ i t, c.tiles[i]? = some t → t.prefab = prefab → i = count - 1
  ends : c.tiles.length = count → ∃ t, c.tiles.getLast? = some t ∧ t.prefab = prefab

/-- If the reservation holds for what is put on, it is a matter of the first tile. -/
theorem reserved_iff {c : Chain α} {first l count : Nat} {added : List Nat} (hcount : 2 ≤ count)
    (hprefabs : c.tiles.map ChainTile.prefab = first :: added)
    (hadded : ∀ i p, added[i]? = some p → (p = l ↔ i + 1 = count - 1)) :
    c.Reserved l count ↔ first ≠ l := by
  have hplace : ∀ (i : Nat) (t : ChainTile α), c.tiles[i]? = some t →
      (first :: added)[i]? = some t.prefab := by
    intro i t ht
    rw [← hprefabs, List.getElem?_map, ht]
    rfl
  constructor
  · intro hreserved hequal
    obtain ⟨t, ht, hprefab⟩ : ∃ t, c.tiles[0]? = some t ∧ t.prefab = first := by
      have hzero : (c.tiles.map ChainTile.prefab)[0]? = some first := by rw [hprefabs]; rfl
      rw [List.getElem?_map] at hzero
      exact Option.map_eq_some_iff.mp hzero
    have := hreserved.only_last 0 t ht (hprefab.trans hequal)
    omega
  · intro hne
    have hiff : ∀ (i : Nat) (t : ChainTile α), c.tiles[i]? = some t →
        (t.prefab = l ↔ i = count - 1) := by
      intro i t ht
      cases i with
      | zero =>
        have hprefab : first = t.prefab := by simpa using hplace 0 t ht
        rw [← hprefab]
        exact iff_of_false hne (by omega)
      | succ i => exact hadded i t.prefab (by simpa using hplace (i + 1) t ht)
    refine ⟨fun i t ht => (hiff i t ht).mp, ?_⟩
    intro hfull
    have hlt : count - 1 < c.tiles.length := by omega
    refine ⟨c.tiles[count - 1], ?_, ?_⟩
    · rw [List.getLast?_eq_getElem?, hfull, List.getElem?_eq_getElem hlt]
    · exact (hiff _ _ (List.getElem?_eq_getElem hlt)).mpr rfl

variable [Scalar α] [RandomSource ρ α]

/-- **Of the tiles that are put on, the one in the last place and no other is of the reserved
prefab.** -/
theorem grow_reserved (prefabs : Array (TileShape α)) {params : ChainParams} {l : Nat}
    (hlast : params.last = some l) (wanted : Nat) (g : Growing α) (s : ρ) :
    ∃ added, (grow prefabs params wanted g s).1.prefabs = g.prefabs ++ added ∧
      ∀ i p, added[i]? = some p → (p = l ↔ i + 1 = wanted) := by
  induction wanted generalizing g s with
  | zero => exact ⟨[], by simp [grow], by simp⟩
  | succ wanted ih =>
    rcases grow_cases prefabs params wanted g s with hends | ⟨c, g', s', hc, hput, hgrow⟩
    · exact ⟨[], by rw [hends, List.append_nil], by simp⟩
    · obtain ⟨-, -, -, -, hpermitted, -⟩ := Candidate.mem_collect.mp hc
      obtain ⟨added, hadded, hplaces⟩ := ih g' s'
      refine ⟨c.prefab :: added, ?_, ?_⟩
      · rw [hgrow, hadded, Growing.prefabs_put hput, List.append_assoc, List.singleton_append]
      · intro i p hp
        cases i with
        | zero =>
          obtain rfl : c.prefab = p := by simpa using hp
          rw [Candidate.eq_last_iff hlast hpermitted, decide_eq_true_iff]
          omega
        | succ i =>
          rw [hplaces i p (by simpa using hp)]
          omega

/-- **The reservation is kept if and only if the first tile is not of the reserved prefab.** -/
theorem generate_reserved {prefabs : Array (TileShape α)} {params : ChainParams} {l : Nat}
    (hcount : 2 ≤ params.count) (hlast : params.last = some l) (hl : l < prefabs.size)
    (hfirst : ∀ i, params.first = some i → i < prefabs.size) (s : ρ) :
    ∃ c s', generate prefabs params s = (.ok c, s') ∧
      (c.Reserved l params.count ↔
        params.first.getD (RandomSource.nextIndex prefabs.size s).1 ≠ l) := by
  have hlasts : ∀ i, params.last = some i → i < prefabs.size := by
    intro i hi
    obtain rfl : l = i := Option.some.inj (hlast.symm.trans hi)
    exact hl
  obtain ⟨c, s', hc, first, s₁, hfirstTile, htiles⟩ :=
    generate_eq (by omega) (by omega) hfirst hlasts s
  obtain ⟨added, hgrown, hplaces⟩ :=
    grow_reserved prefabs hlast (params.count - 1) ⟨first, [], []⟩ s₁
  have hprefabs : c.tiles.map ChainTile.prefab = first.prefab :: added := by
    rw [htiles]
    exact hgrown
  refine ⟨c, s', hc, ?_⟩
  rw [reserved_iff hcount hprefabs hplaces, ← firstTile_prefab (α := α), hfirstTile]

/-- If the prefab of the first tile is not named to be the reserved one, the reservation is kept
unless that prefab is drawn. -/
theorem generate_reserved_iff {prefabs : Array (TileShape α)} {params : ChainParams} {l : Nat}
    (hcount : 2 ≤ params.count) (hlast : params.last = some l) (hl : l < prefabs.size)
    (hfirst : ∀ i, params.first = some i → i < prefabs.size ∧ i ≠ l) (s : ρ) :
    ∃ c s', generate prefabs params s = (.ok c, s') ∧
      (c.Reserved l params.count ↔
        (params.first = none → (RandomSource.nextIndex prefabs.size s).1 ≠ l)) := by
  obtain ⟨c, s', hc, hreserved⟩ :=
    generate_reserved hcount hlast hl (fun i hi => (hfirst i hi).1) s
  refine ⟨c, s', hc, ?_⟩
  rw [hreserved]
  cases hnamed : params.first with
  | none => simp
  | some i => simpa using (hfirst i hnamed).2

end Chain

/-- A cube of the given height that takes a neighbour on its top, at its bottom, or at both. -/
def TileShape.block (height : Float32) (top bottom : Nat) : TileShape Float32 :=
  ⟨⟨1, height, 1⟩, ⟨0, 0, 0, 0, top, bottom⟩, .zero⟩

/-- Stacks of the given height whose last tile is to be of the prefab `1`. -/
def ChainParams.capped (count : Nat) : ChainParams := ⟨count, .y, none, some 1, false, false⟩

/-- A stack that begins with a block other than the cap it is to end with. -/
theorem Chain.generate_reserved_capped :
    (RandomSource.nextIndex 3 Halves.half).1 ≠ 1 ∧
    ∃ c s', generate #[.block 1 1 1, .block 2 0 1, .block 3 1 1] (.capped 3) Halves.half =
      (.ok c, s') ∧ c.Reserved 1 3 := by
  have hdrawn : (RandomSource.nextIndex 3 Halves.half).1 ≠ 1 := by decide
  obtain ⟨c, s', hc, hreserved⟩ :=
    @generate_reserved_iff _ _ _ _ #[.block 1 1 1, .block 2 0 1, .block 3 1 1] (.capped 3) 1
      (by decide) rfl (by decide) (by simp [ChainParams.capped]) Halves.half
  exact ⟨hdrawn, c, s', hc, hreserved.mpr fun _ => hdrawn⟩

/-- A stack of two that begins with the cap, because the draw of a half gives it. -/
theorem Chain.generate_capped_begins :
    ∃ c s', generate #[.block 1 1 0, .block 2 0 1] (.capped 2)
      (⟨#[Float32.ofBits 0x3f000000], 0⟩ : Replay) = (.ok c, s') ∧ ¬ c.Reserved 1 2 := by
  have hdrawn : (RandomSource.nextIndex 2 (⟨#[Float32.ofBits 0x3f000000], 0⟩ : Replay)).1 = 1 := by
    rfl
  obtain ⟨c, s', hc, hreserved⟩ :=
    @generate_reserved _ _ _ _ #[.block 1 1 0, .block 2 0 1] (.capped 2) 1
      (by decide) rfl (by decide) (by simp [ChainParams.capped])
      (⟨#[Float32.ofBits 0x3f000000], 0⟩ : Replay)
  exact ⟨c, s', hc, fun h => hreserved.mp h hdrawn⟩

end SpatialGrammar
