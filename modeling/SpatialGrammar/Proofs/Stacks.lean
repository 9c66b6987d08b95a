/-
SpatialGrammar/Proofs/Stacks.lean

What a chain looks like whose tiles are put on one another.

The top and the bottom of a tile are the only faces at which it can be joined, one of them
is taken by the tile before it, and two tops or two bottoms are not put together.  So a
chain that has begun to rise keeps rising, and one that has begun to go down keeps going
down (`ChainTile.Follows.joint_eq`).  Read in one direction or the other, each tile stands on the
one before it (`ChainTile.StandsOn`); what is said of the whole stack follows from that,
by induction on its tiles.

Everything is stated over the real numbers.
-/
import Mathlib.Algebra.BigOperators.Group.List.Basic
import Mathlib.Order.Interval.Set.Disjoint
import SpatialGrammar.Proofs.ChainPoses

namespace SpatialGrammar

variable {ρ : Type}

theorem Scalar.sum_real (xs : List ℝ) : Scalar.sum xs = xs.sum :=
  List.sum_eq_foldl.symm

/-! ### Tiles that stand on one another -/

namespace ChainTile

/-- How high a tile is; there is no tile where there is no prefab. -/
noncomputable def rise (prefabs : Array (TileShape ℝ)) (t : ChainTile ℝ) : ℝ :=
  ((prefabs[t.prefab]?).map fun p => p.size.y).getD 0

/-- The lower end of a tile. -/
def bottom (t : ChainTile ℝ) : ℝ := t.pose.position.y

/-- The upper end of a tile. -/
noncomputable def top (prefabs : Array (TileShape ℝ)) (t : ChainTile ℝ) : ℝ :=
  t.bottom + t.rise prefabs

/-- The tile `u` stands on the tile `t`, right above it. -/
def StandsOn (prefabs : Array (TileShape ℝ)) (t u : ChainTile ℝ) : Prop :=
  u.pose.position = t.pose.position.add ⟨0, t.rise prefabs, 0⟩

variable {prefabs : Array (TileShape ℝ)} {t u v : ChainTile ℝ} {a m a' m' : Face}

theorem rise_eq {p : TileShape ℝ} (h : prefabs[t.prefab]? = some p) :
    t.rise prefabs = p.size.y := by
  unfold rise
  rw [h]
  rfl

theorem rise_nonneg (hheights : ∀ p ∈ prefabs, 0 ≤ p.size.y) : 0 ≤ t.rise prefabs := by
  unfold rise
  rcases hp : prefabs[t.prefab]? with - | p
  · exact le_refl 0
  · exact hheights p (Array.mem_of_getElem? hp)

theorem bottom_le_top (hheights : ∀ p ∈ prefabs, 0 ≤ p.size.y) : t.bottom ≤ t.top prefabs :=
  le_add_of_nonneg_right (rise_nonneg hheights)

theorem sum_rise_nonneg (hheights : ∀ p ∈ prefabs, 0 ≤ p.size.y) (ts : List (ChainTile ℝ)) :
    0 ≤ (ts.map (rise prefabs)).sum := by
  refine List.sum_nonneg ?_
  intro x hx
  obtain ⟨t, -, rfl⟩ := List.mem_map.mp hx
  exact rise_nonneg hheights

theorem StandsOn.bottom_eq (h : t.StandsOn prefabs u) : u.bottom = t.top prefabs :=
  congrArg Vec3.y h

theorem StandsOn.x_eq (h : t.StandsOn prefabs u) : u.pose.position.x = t.pose.position.x := by
  simpa using congrArg Vec3.x h

theorem StandsOn.z_eq (h : t.StandsOn prefabs u) : u.pose.position.z = t.pose.position.z := by
  simpa using congrArg Vec3.z h

/-! ### Joints of stacks -/

/-- In a stack a tile is put by its bottom on a top, or by its top under a bottom. -/
theorem Follows.faces_eq {α : Type} [Scalar α] {prefabs : Array (TileShape α)} {t u : ChainTile α}
    (h : t.Follows prefabs .y a m u) : (a, m) = (.yPos, .yNeg) ∨ (a, m) = (.yNeg, .yPos) := by
  obtain ⟨p, q, -, -, ⟨ha, hm, -, -, hnot⟩, -⟩ := h.shapes
  revert ha hm hnot
  cases a <;> cases m <;> decide

/-- **A stack does not turn back**: the next tile is put on as this one was. -/
theorem Follows.joint_eq {α : Type} [Scalar α] {prefabs : Array (TileShape α)} {t u : ChainTile α}
    (h : t.Follows prefabs .y a' m' u) (hjoint : t.joint = some (a, m))
    (hfaces : (a, m) = (.yPos, .yNeg) ∨ (a, m) = (.yNeg, .yPos)) : u.joint = some (a, m) := by
  have hfree : a' ≠ m := by
    have hown : t.ownFace = [m] := by
      unfold ownFace
      rw [hjoint]
      rfl
    have hnot := h.free
    rw [hown] at hnot
    exact fun hm => hnot (List.mem_singleton.mpr hm)
  rw [h.joint]
  rcases hfaces with hf | hf <;> rcases h.faces_eq with hf' | hf' <;> cases hf <;> cases hf'
  · rfl
  · exact absurd rfl hfree
  · exact absurd rfl hfree
  · rfl

/-- A point above the origin of an upright tile stays right above it. -/
theorem transformPoint_above {pose : Transform ℝ} {k : ℤ} (h : pose.Upright k) (y : ℝ) :
    pose.transformPoint ⟨0, y, 0⟩ = pose.position.add ⟨0, y, 0⟩ := by
  unfold Transform.transformPoint
  rw [h.rotation, h.scale, Vec3.mul_one, Quat.rotate_ofYaw]
  ext <;> simp [add_comm]

variable {k : ℤ}

/-- What is put by its bottom on a top stands on it. -/
theorem Follows.standsOn_of_up (h : t.Follows prefabs .y .yPos .yNeg u) (ht : t.pose.Upright k) :
    t.StandsOn prefabs u := by
  obtain ⟨p, q, hp, -, -, hpose⟩ := h.shapes
  have href := StandingTile.referencePoint_align ⟨p, t.pose⟩ ⟨q, .identity⟩ .yPos .yNeg .y
  rw [← hpose] at href
  unfold StandsOn
  rw [rise_eq hp, ← transformPoint_above ht]
  exact href

/-- What is put by its top under a bottom is stood on. -/
theorem Follows.standsOn_of_down (h : t.Follows prefabs .y .yNeg .yPos u) (ht : t.pose.Upright k) :
    u.StandsOn prefabs t := by
  obtain ⟨p, q, -, hq, -, hpose⟩ := h.shapes
  have href := StandingTile.referencePoint_align ⟨p, t.pose⟩ ⟨q, .identity⟩ .yNeg .yPos .y
  have horigin : t.pose.transformPoint .zero = t.pose.position := by
    rw [Vec3.zero, transformPoint_above ht]
    exact Vec3.add_zero _
  rw [← hpose] at href
  unfold StandsOn
  rw [rise_eq hq, ← horigin]
  exact href.symm

end ChainTile

/-! ### Stacks -/

/-- Tiles fill one interval of the upward axis without gap or overlap, and
the height is its length. -/
structure ChainTile.Piled (prefabs : Array (TileShape ℝ)) (ts : List (ChainTile ℝ)) (height : ℝ) :
    Prop where
  /-- They are right above one another. -/
  aligned : ∀ t ∈ ts, ∀ u ∈ ts,
    t.pose.position.x = u.pose.position.x ∧ t.pose.position.z = u.pose.position.z
  /-- What two of them share is where the one ends and the other begins. -/
  disjoint : ts.Pairwise fun t u : ChainTile ℝ =>
    Disjoint (Set.Ico t.bottom (t.top prefabs)) (Set.Ico u.bottom (u.top prefabs))
  /-- Together they are an interval. -/
  filled : ∃ low high, low ≤ high ∧ height = high - low ∧
    (ts ≠ [] → (⋃ t ∈ ts, Set.Icc t.bottom (t.top prefabs)) = Set.Icc low high)

namespace ChainTile

variable {prefabs : Array (TileShape ℝ)} {t : ChainTile ℝ} {ts : List (ChainTile ℝ)} {height : ℝ}

/-- It makes no difference from which end they are counted. -/
theorem Piled.reverse (h : Piled prefabs ts height) : Piled prefabs ts.reverse height where
  aligned := by
    intro t ht u hu
    exact h.aligned t (List.mem_reverse.mp ht) u (List.mem_reverse.mp hu)
  disjoint := List.pairwise_reverse.mpr (h.disjoint.imp fun hd => hd.symm)
  filled := by
    obtain ⟨low, high, hle, hheight, hunion⟩ := h.filled
    refine ⟨low, high, hle, hheight, ?_⟩
    intro hne
    rw [← hunion (by simpa using hne)]
    simp only [List.mem_reverse]

/-- Tiles that stand on one another are right above one another. -/
theorem aligned_of_standsOn (h : ts.IsChain (StandsOn prefabs)) : ∀ t ∈ ts, ∀ u ∈ ts,
    t.pose.position.x = u.pose.position.x ∧ t.pose.position.z = u.pose.position.z := by
  cases ts with
  | nil => exact fun _ ht => nomatch ht
  | cons t₀ ts =>
    have hfirst : ∀ t ∈ t₀ :: ts, t.pose.position.x = t₀.pose.position.x ∧
        t.pose.position.z = t₀.pose.position.z := by
      refine h.induction (fun t => t.pose.position.x = t₀.pose.position.x ∧
        t.pose.position.z = t₀.pose.position.z) _ ?_ fun _ => ⟨rfl, rfl⟩
      intro t u htu ht
      exact ⟨htu.x_eq.trans ht.1, htu.z_eq.trans ht.2⟩
    intro t ht u hu
    exact ⟨(hfirst t ht).1.trans (hfirst u hu).1.symm, (hfirst t ht).2.trans (hfirst u hu).2.symm⟩

/-- Each ends below all that are above it. -/
theorem top_le_of_standsOn (hheights : ∀ p ∈ prefabs, 0 ≤ p.size.y)
    (h : ts.IsChain (StandsOn prefabs)) :
    ts.Pairwise fun t u : ChainTile ℝ => t.top prefabs ≤ u.bottom := by
  let Below (t u : ChainTile ℝ) : Prop := t.top prefabs ≤ u.bottom
  have htrans : Trans Below Below Below :=
    ⟨fun htu huv => (le_trans htu (bottom_le_top hheights)).trans huv⟩
  have hbelow : ts.IsChain Below := h.imp fun _ _ htu => htu.bottom_eq.ge
  exact hbelow.pairwise

/-- They reach from the bottom of the first one as far up as they are high together. -/
theorem iUnion_of_standsOn (hheights : ∀ p ∈ prefabs, 0 ≤ p.size.y)
    (h : (t :: ts).IsChain (StandsOn prefabs)) :
    (⋃ u ∈ t :: ts, Set.Icc u.bottom (u.top prefabs)) =
      Set.Icc t.bottom (t.bottom + ((t :: ts).map (rise prefabs)).sum) := by
  induction ts generalizing t with
  | nil => simp [top]
  | cons u ts ih =>
    obtain ⟨htu, hrest⟩ := List.isChain_cons_cons.mp h
    have hsplit : (⋃ v ∈ t :: u :: ts, Set.Icc v.bottom (v.top prefabs)) =
        Set.Icc t.bottom (t.top prefabs) ∪ ⋃ v ∈ u :: ts, Set.Icc v.bottom (v.top prefabs) := by
      simp only [List.mem_cons (a := _) (b := t), Set.iUnion_iUnion_eq_or_left]
    have hsum : t.bottom + ((t :: u :: ts).map (rise prefabs)).sum =
        t.top prefabs + ((u :: ts).map (rise prefabs)).sum := by
      rw [List.map_cons, List.sum_cons, ← add_assoc]
      rfl
    rw [hsplit, ih hrest, htu.bottom_eq, hsum]
    exact Set.Icc_union_Icc_eq_Icc (bottom_le_top hheights)
      (le_add_of_nonneg_right (sum_rise_nonneg hheights _))

/-- **Tiles that stand on one another are piled up** as high as they are together. -/
theorem piled_of_standsOn (hheights : ∀ p ∈ prefabs, 0 ≤ p.size.y)
    (h : ts.IsChain (StandsOn prefabs)) : Piled prefabs ts (ts.map (rise prefabs)).sum where
  aligned := aligned_of_standsOn h
  disjoint := by
    refine (top_le_of_standsOn hheights h).imp ?_
    intro t u hle
    rw [Set.Ico_disjoint_Ico]
    exact (min_le_left _ _).trans (hle.trans (le_max_right _ _))
  filled := by
    cases ts with
    | nil => exact ⟨0, 0, le_refl 0, by simp, fun hne => absurd rfl hne⟩
    | cons t ts =>
      refine ⟨t.bottom, _, le_add_of_nonneg_right (sum_rise_nonneg hheights _), ?_,
        fun _ => iUnion_of_standsOn hheights h⟩
      ring

end ChainTile

/-! ### Generated stacks -/

namespace Chain

variable {prefabs : Array (TileShape ℝ)} {g : Growing ℝ} {first : ChainTile ℝ}

/-- The tiles of a stack are all put on in one way. -/
theorem Growing.Linked.one_way (h : g.Linked prefabs .y first) :
    (∀ t ∈ g.tiles.tail, t.joint = some (.yPos, .yNeg)) ∨
      ∀ t ∈ g.tiles.tail, t.joint = some (.yNeg, .yPos) := by
  have hchain := h.follows
  generalize g.tiles = ts at hchain ⊢
  rcases ts with - | ⟨t, - | ⟨u, ts⟩⟩
  · exact .inl fun _ ht => nomatch ht
  · exact .inl fun _ ht => nomatch ht
  · obtain ⟨⟨a, m, hfollows⟩, hrest⟩ := List.isChain_cons_cons.mp hchain
    have hsame : ∀ v ∈ u :: ts, v.joint = some (a, m) := by
      refine hrest.induction (fun v => v.joint = some (a, m)) _ ?_ fun _ => hfollows.joint
      rintro v w ⟨a', m', hvw⟩ hv
      exact hvw.joint_eq hv hfollows.faces_eq
    rcases hfollows.faces_eq with hf | hf <;> cases hf
    · exact .inl hsame
    · exact .inr hsame

/-- What holds wherever a tile follows another one, holds along the chain. -/
theorem Growing.Linked.isChain_of {mode : AxisMode} {R : ChainTile ℝ → ChainTile ℝ → Prop}
    (h : g.Linked prefabs mode first)
    (hR : ∀ t ∈ g.tiles, ∀ u ∈ g.tiles.tail, ∀ a m, t.Follows prefabs mode a m u → R t u) :
    g.tiles.IsChain R := by
  refine List.isChain_iff_getElem.mpr ?_
  intro i hi
  obtain ⟨a, m, hfollows⟩ := List.isChain_iff_getElem.mp h.follows i hi
  have hu : g.tiles.tail[i]? = some g.tiles[i + 1] := by
    rw [List.getElem?_tail, List.getElem?_eq_getElem hi]
  exact hR _ (List.getElem_mem _) _ (List.mem_of_getElem? hu) a m hfollows

/-- A generated chain goes up or down without gap or overlap, and its height is what it takes. -/
structure Stacked (prefabs : Array (TileShape ℝ)) (ch : Chain ℝ) : Prop
    extends ChainTile.Piled prefabs ch.tiles ch.height where
  /-- Its tiles are all put on the tops, or all under the bottoms, of the ones before them. -/
  one_way : (∀ t ∈ ch.tiles.tail, t.joint = some (.yPos, .yNeg)) ∨
    ∀ t ∈ ch.tiles.tail, t.joint = some (.yNeg, .yPos)
  /-- And they touch them. -/
  touching : ∀ i t u, ch.tiles[i]? = some t → ch.tiles[i + 1]? = some u →
    u.joint = some (.yPos, .yNeg) ∧ u.bottom = t.top prefabs ∨
      u.joint = some (.yNeg, .yPos) ∧ t.bottom = u.top prefabs

/-- The height that is reported is the sum of the heights of the tiles. -/
theorem sum_heights (prefabs : Array (TileShape ℝ)) (ts : List (ChainTile ℝ)) :
    Scalar.sum (heights prefabs ts) = (ts.map (ChainTile.rise prefabs)).sum := by
  rw [Scalar.sum_real]
  unfold heights
  induction ts with
  | nil => rfl
  | cons t ts ih =>
    rw [List.filterMap_cons, List.map_cons, List.sum_cons, ← ih]
    unfold ChainTile.rise
    cases prefabs[t.prefab]? <;> simp

/-- Tiles that are put on one another are piled up. -/
theorem Growing.Linked.piled (h : g.Linked prefabs .y first)
    (hupright : ∀ t ∈ g.tiles, ∃ k : ℤ, t.pose.Upright k)
    (hheights : ∀ p ∈ prefabs, 0 ≤ p.size.y) :
    ChainTile.Piled prefabs g.tiles (g.tiles.map (ChainTile.rise prefabs)).sum := by
  rcases h.one_way with hup | hdown
  · refine ChainTile.piled_of_standsOn hheights (h.isChain_of ?_)
    intro t ht u hu a m hfollows
    obtain ⟨k, hk⟩ := hupright t ht
    obtain ⟨rfl, rfl⟩ : a = .yPos ∧ m = .yNeg := by
      simpa using hfollows.joint.symm.trans (hup u hu)
    exact hfollows.standsOn_of_up hk
  · -- from the last tile on they stand on one another
    have hchain : g.tiles.reverse.IsChain (ChainTile.StandsOn prefabs) := by
      refine List.isChain_reverse.mpr (h.isChain_of ?_)
      intro t ht u hu a m hfollows
      obtain ⟨k, hk⟩ := hupright t ht
      obtain ⟨rfl, rfl⟩ : a = .yNeg ∧ m = .yPos := by
        simpa using hfollows.joint.symm.trans (hdown u hu)
      exact hfollows.standsOn_of_down hk
    have hpiled := (ChainTile.piled_of_standsOn hheights hchain).reverse
    rwa [List.reverse_reverse, List.map_reverse, List.sum_reverse] at hpiled

/-- Each of them touches the one before it. -/
theorem Growing.Linked.touching (h : g.Linked prefabs .y first)
    (hupright : ∀ t ∈ g.tiles, ∃ k : ℤ, t.pose.Upright k) {i : Nat} {t u : ChainTile ℝ}
    (ht : g.tiles[i]? = some t) (hu : g.tiles[i + 1]? = some u) :
    u.joint = some (.yPos, .yNeg) ∧ u.bottom = t.top prefabs ∨
      u.joint = some (.yNeg, .yPos) ∧ t.bottom = u.top prefabs := by
  obtain ⟨a, m, hfollows⟩ := h.consecutive ht hu
  obtain ⟨k, hk⟩ := hupright t (List.mem_of_getElem? ht)
  rcases hfollows.faces_eq with hf | hf <;> cases hf
  · exact .inl ⟨hfollows.joint, (hfollows.standsOn_of_up hk).bottom_eq⟩
  · exact .inr ⟨hfollows.joint, (hfollows.standsOn_of_down hk).bottom_eq⟩

/-- **Every chain that is generated by putting tiles on one another is a stack** that goes in one
direction. -/
theorem generate_stacked [RandomSource ρ ℝ] {params : ChainParams} {s : ρ} {ch : Chain ℝ}
    (hmode : params.axisMode = .y) (hheights : ∀ p ∈ prefabs, 0 ≤ p.size.y)
    (h : (generate prefabs params s).1 = .ok ch) :
    ch.Stacked prefabs := by
  rcases generate_linked h with ⟨-, rfl⟩ | ⟨-, g, rfl, hlinked, -⟩
  · -- there are no tiles
    have hpiled : ChainTile.Piled prefabs [] 0 :=
      ChainTile.piled_of_standsOn hheights List.isChain_nil
    exact ⟨hpiled, .inl fun _ ht => (nomatch ht), fun _ _ _ ht => (nomatch ht)⟩
  · have hupright := hlinked.upright
    rw [hmode] at hlinked
    have hheight : heightOf params.axisMode (heights prefabs g.tiles) =
        (g.tiles.map (ChainTile.rise prefabs)).sum := by
      unfold heightOf
      rw [if_pos hmode, sum_heights]
    rw [hheight]
    exact ⟨hlinked.piled hupright hheights, hlinked.one_way,
      fun _ _ _ ht hu => hlinked.touching hupright ht hu⟩

end Chain

/-- Three tiles of different heights that are put on one another. -/
theorem Chain.generate_stacked_tower : ∃ ch,
    (generate #[.uniform .one, .uniform ⟨1, 2, 1⟩, .uniform ⟨1, 3, 1⟩]
      ⟨3, .y, none, none, false, true⟩ (⟨0⟩ : Steady)).1 = .ok ch ∧
    ch.plan = [(0, none), (1, some (.yPos, .yNeg)), (2, some (.yPos, .yNeg))] ∧
    ch.Stacked #[.uniform .one, .uniform ⟨1, 2, 1⟩, .uniform ⟨1, 3, 1⟩] := by
  obtain ⟨ch, hch, hplan⟩ := exists_plan (by decide +kernel :
    (generate #[.uniform .one, .uniform ⟨1, 2, 1⟩, .uniform ⟨1, 3, 1⟩]
      ⟨3, .y, none, none, false, true⟩ (⟨0⟩ : Steady)).1.toOption.map plan =
      some [(0, none), (1, some (.yPos, .yNeg)), (2, some (.yPos, .yNeg))])
  exact ⟨ch, hch, hplan, generate_stacked rfl (by simp [TileShape.uniform, Vec3.one]) hch⟩

end SpatialGrammar
