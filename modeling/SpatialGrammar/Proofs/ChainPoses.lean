/-
SpatialGrammar/Proofs/ChainPoses.lean

Where the tiles of a chain stand.

A tile that is put on another one is shifted until its reference point lies on the anchor's
pivot, whatever way either of them is turned (`StandingTile.referencePoint_align`).  For the
turn the anchor's own must be known, and it is read off as a number of quarter turns: a
chain begins with one, and a tile that is put on a tile with one has one
(`ChainTile.Follows.upright`).  So none is ever taken for a tile that is not turned, and
the two faces of every joint look at each other (`Chain.generate_faceToFace`).

Everything is stated over the real numbers.
-/
import SpatialGrammar.Proofs.ChainLinkage
import SpatialGrammar.Proofs.Joints

namespace SpatialGrammar

variable {ρ : Type}

/-! ### Outward directions -/

/-- The direction out of a tile through one of its faces, before the tile is turned. -/
def Face.normal {α : Type} [Scalar α] : Face → Vec3 α
  | .xPos => .unitX
  | .zNeg => Vec3.unitZ.scale (-1)
  | .xNeg => Vec3.unitX.scale (-1)
  | .zPos => .unitZ
  | .yPos => .unitY
  | .yNeg => Vec3.unitY.scale (-1)

/-- The face at which a face is after a quarter turn about the upward axis. -/
def Face.turned : Face → Face
  | .xPos => .zNeg
  | .zNeg => .xNeg
  | .xNeg => .zPos
  | .zPos => .xPos
  | .yPos => .yPos
  | .yNeg => .yNeg

namespace Face

theorem normal_opposite (f : Face) : (f.opposite.normal : Vec3 ℝ) = f.normal.scale (-1) := by
  cases f <;> ext <;> simp [normal, opposite, Vec3.unitX, Vec3.unitY, Vec3.unitZ]

theorem normal_turned (f : Face) : (f.turned.normal : Vec3 ℝ) = f.normal.quarterTurned := by
  cases f <;> ext <;>
    simp [normal, turned, Vec3.quarterTurned, Vec3.unitX, Vec3.unitY, Vec3.unitZ]

/-- Outward directions turn with the tile. -/
theorem rotate_normal (n : Nat) (f : Face) :
    (Quat.ofYaw (90 * (n : ℝ))).rotate f.normal = (turned^[n] f).normal := by
  have hsemi : Function.Semiconj (normal : Face → Vec3 ℝ) turned Vec3.quarterTurned :=
    normal_turned
  rw [Quat.rotate_quarters, hsemi.iterate_right n f]

end Face

/-- The quarter turns of a join bring the moving tile's face to the place
across from the anchor's. -/
theorem TileShape.Joins.turned_eq {α : Type} {mode : AxisMode} {p q : TileShape α} {a m : Face}
    (h : TileShape.Joins mode p a q m) :
    Face.turned^[mode.quarterTurns m a.opposite] m = a.opposite := by
  obtain ⟨ha, hm, -, -, hnot⟩ := h
  revert ha hm hnot
  cases mode <;> cases a <;> cases m <;> decide

/-- So the face looks the other way. -/
theorem TileShape.Joins.rotate_normal {mode : AxisMode} {p q : TileShape ℝ} {a m : Face}
    (h : TileShape.Joins mode p a q m) :
    (Quat.ofYaw (mode.turn m a.opposite) : Quat ℝ).rotate m.normal = a.normal.scale (-1) := by
  rw [AxisMode.turn_real, Face.rotate_normal, h.turned_eq, Face.normal_opposite]

/-! ### Putting a tile on another one -/

/-- A tile is not stretched, and it stands upright, turned by so many quarter turns. -/
structure Transform.Upright (pose : Transform ℝ) (k : ℤ) : Prop where
  rotation : pose.rotation = .ofYaw (90 * (k : ℝ))
  scale : pose.scale = .one

namespace StandingTile

/-- The reference point of a tile that is put on another one lies on the pivot of that one. -/
theorem referencePoint_align (anchor moving : StandingTile ℝ) (a m : Face) (mode : AxisMode) :
    moving.shape.referencePoint (anchor.align a moving m mode) m =
      anchor.pose.transformPoint (anchor.shape.anchorPivot a m) := by
  -- a reference point moves with its tile
  have hshift : ∀ (position d : Vec3 ℝ) (rotation : Quat ℝ) (scale : Vec3 ℝ),
      moving.shape.referencePoint ⟨position.add d, rotation, scale⟩ m =
        (moving.shape.referencePoint ⟨position, rotation, scale⟩ m).add d := by
    intro position d rotation scale
    cases m <;> ext <;> simp [TileShape.referencePoint, Transform.transformPoint] <;> ring
  unfold align
  dsimp only
  rw [hshift]
  ext <;> simp

/-- A tile that is put on an upright one is upright. -/
theorem upright_align {anchor : StandingTile ℝ} {moving : TileShape ℝ} {a m : Face}
    {mode : AxisMode} {k : ℤ} (h : anchor.pose.Upright k) :
    (anchor.align a ⟨moving, .identity⟩ m mode).Upright
      (k % 4 + mode.quarterTurns m a.opposite) where
  rotation := by
    have hyaw : anchor.pose.quantizedYaw + mode.turn m a.opposite =
        90 * ((k % 4 + mode.quarterTurns m a.opposite : ℤ) : ℝ) := by
      rw [Transform.quantizedYaw_quarters h.rotation, AxisMode.turn_real]
      push_cast
      ring
    unfold align
    dsimp only [Transform.identity]
    rw [hyaw, Quat.identity_multiply, Quat.normalize_ofYaw]
  scale := rfl

end StandingTile

/-! ### Chains -/

namespace ChainTile

variable {prefabs : Array (TileShape ℝ)} {mode : AxisMode} {a m : Face} {t u : ChainTile ℝ} {k : ℤ}

/-- A tile that follows an upright one is upright. -/
theorem Follows.upright (h : t.Follows prefabs mode a m u) (ht : t.pose.Upright k) :
    u.pose.Upright (k % 4 + mode.quarterTurns m a.opposite) := by
  obtain ⟨p, q, -, -, -, hpose⟩ := h.shapes
  rw [hpose]
  exact StandingTile.upright_align ht

/-- The faces at which it was put on look at each other. -/
theorem Follows.normal_eq (h : t.Follows prefabs mode a m u) (ht : t.pose.Upright k) :
    u.pose.rotation.rotate m.normal = (t.pose.rotation.rotate a.normal).scale (-1) := by
  obtain ⟨p, q, -, -, hjoins, -⟩ := h.shapes
  have hsum : 90 * ((k % 4 + mode.quarterTurns m a.opposite : ℤ) : ℝ) =
      90 * ((k % 4 : ℤ) : ℝ) + mode.turn m a.opposite := by
    rw [AxisMode.turn_real]
    push_cast
    ring
  rw [(h.upright ht).rotation, hsum, Quat.rotate_ofYaw_add, hjoins.rotate_normal,
    Quat.rotate_emod, ← ht.rotation, Quat.rotate_scale]

end ChainTile

namespace Chain

variable [RandomSource ρ ℝ]

/-- The first tile stands upright. -/
theorem firstTile_upright (count : Nat) (params : ChainParams) (s : ρ) :
    ∃ k : ℤ, (firstTile count params s).1.pose.Upright k := by
  obtain ⟨pose, h, rfl | ⟨turns, rfl⟩⟩ := firstTile_spec (α := ℝ) count params s
  · refine ⟨0, ?_, ?_⟩ <;> simp [h, Transform.identity]
  · have hquarters : (turns : ℝ) * ((90 : Nat) : ℝ) = 90 * ((turns : ℤ) : ℝ) := by
      push_cast
      ring
    rw [h]
    exact ⟨turns, congrArg Quat.ofYaw hquarters, rfl⟩

/-- So do all tiles of a chain that is linked from the first one on. -/
theorem Growing.Linked.upright {prefabs : Array (TileShape ℝ)} {params : ChainParams}
    {g : Growing ℝ} {s : ρ}
    (h : g.Linked prefabs params.axisMode (firstTile prefabs.size params s).1) :
    ∀ t ∈ g.tiles, ∃ k : ℤ, t.pose.Upright k := by
  refine h.follows.induction (fun t => ∃ k : ℤ, t.pose.Upright k) _ ?_ ?_
  · rintro t u ⟨a, m, hfollows⟩ ⟨k, hk⟩
    exact ⟨_, hfollows.upright hk⟩
  · intro hne
    obtain ⟨k, hk⟩ := firstTile_upright prefabs.size params s
    obtain ⟨t, ht, -, hpose, -⟩ := h.begins
    rw [List.head?_eq_some_head hne] at ht
    rw [Option.some.inj ht, hpose]
    exact ⟨k, hk⟩

theorem upright_of_generate {prefabs : Array (TileShape ℝ)} {params : ChainParams} {s : ρ}
    {ch : Chain ℝ} (h : (generate prefabs params s).1 = .ok ch) :
    ∀ t ∈ ch.tiles, ∃ k : ℤ, t.pose.Upright k := by
  rcases generate_linked h with ⟨-, rfl⟩ | ⟨-, g, rfl, hlinked, -⟩
  · exact fun _ ht => nomatch ht
  · exact hlinked.upright

/-- The tiles of a chain stand upright, and every joint is flush and face to face. -/
structure FaceToFace (prefabs : Array (TileShape ℝ)) (ch : Chain ℝ) : Prop where
  /-- No tile is stretched, and each is turned by a number of quarter turns, which is read off as it
  is. -/
  upright : ∀ t ∈ ch.tiles, t.pose.scale = .one ∧ ∃ k : ℤ, t.pose.rotation = .ofYaw (90 * (k : ℝ)) ∧
    t.pose.quantizedYaw = 90 * ((k % 4 : ℤ) : ℝ)
  /-- Of two tiles that are joined, the reference point of the later one lies on the pivot of the
  earlier one, and they look at each other. -/
  joined : ∀ i t u, ch.tiles[i]? = some t → ch.tiles[i + 1]? = some u → ∃ a m p q,
    u.joint = some (a, m) ∧ prefabs[t.prefab]? = some p ∧ prefabs[u.prefab]? = some q ∧
    q.referencePoint u.pose m = t.pose.transformPoint (p.anchorPivot a m) ∧
    u.pose.rotation.rotate m.normal = (t.pose.rotation.rotate a.normal).scale (-1)

/-- **Every chain that is generated is joined face to face.** -/
theorem generate_faceToFace {prefabs : Array (TileShape ℝ)} {params : ChainParams} {s : ρ}
    {ch : Chain ℝ} (h : (generate prefabs params s).1 = .ok ch) : ch.FaceToFace prefabs := by
  rcases generate_linked h with ⟨-, rfl⟩ | ⟨-, g, rfl, hlinked, -⟩
  · exact ⟨fun _ ht => (nomatch ht), fun _ _ _ ht => (nomatch ht)⟩
  · have hupright : ∀ t ∈ g.tiles, ∃ k : ℤ, t.pose.Upright k := hlinked.upright
    refine ⟨?_, ?_⟩
    · intro t ht
      obtain ⟨k, hk⟩ := hupright t ht
      exact ⟨hk.scale, k, hk.rotation, Transform.quantizedYaw_quarters hk.rotation⟩
    · intro i t u ht hu
      obtain ⟨a, m, hfollows⟩ := hlinked.consecutive ht hu
      obtain ⟨p, q, hp, hq, -, hpose⟩ := hfollows.shapes
      obtain ⟨k, hk⟩ := hupright t (List.mem_of_getElem? ht)
      refine ⟨a, m, p, q, hfollows.joint, hp, hq, ?_, hfollows.normal_eq hk⟩
      rw [hpose]
      exact StandingTile.referencePoint_align ⟨p, t.pose⟩ ⟨q, .identity⟩ a m params.axisMode

end Chain

/-- A source over the reals that gives the same index every time. -/
structure Steady where
  index : Nat

noncomputable instance : RandomSource Steady ℝ where
  nextUnit s := (0, s)
  nextIndex _ s := (s.index, s)

/-- Three tiles around a corner, of which the first is turned by a quarter turn. -/
theorem Chain.generate_faceToFace_corner : ∃ ch,
    (generate #[.uniform .one, .uniform ⟨2, 1, 1⟩] ⟨3, .xz, none, none, true, true⟩
      (⟨1⟩ : Steady)).1 = .ok ch ∧
    ch.plan = [(1, none), (0, some (.zNeg, .zNeg)), (0, some (.xNeg, .zNeg))] ∧
    ch.FaceToFace #[.uniform .one, .uniform ⟨2, 1, 1⟩] := by
  obtain ⟨ch, hch, hplan⟩ := exists_plan (by decide +kernel :
    (generate #[.uniform .one, .uniform ⟨2, 1, 1⟩] ⟨3, .xz, none, none, true, true⟩
      (⟨1⟩ : Steady)).1.toOption.map plan =
      some [(1, none), (0, some (.zNeg, .zNeg)), (0, some (.xNeg, .zNeg))])
  exact ⟨ch, hch, hplan, generate_faceToFace hch⟩

end SpatialGrammar
