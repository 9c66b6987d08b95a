/-
SpatialGrammar/Proofs/SceneForest.lean

The tree of a scene.

Which entity an entity hangs below is kept twice, as its parent and among the children of
the other one.  In a scene that can come about both agree, nothing refers to an entity that
has been removed, and no way up leads back to where it began (`Scene.Forest`).

Ways up are short: an entity has fewer entities above it than there are places, since each of
them has a place of its own (`Scene.Forest.exists_rank`).  So the walks that are cut off after
as many steps as there are places are never cut off (`Scene.Forest.isAncestor_iff`,
`Scene.Forest.world?_eq`), and removing an entity takes everything below it along
(`Scene.Forest.get?_remove`).
-/
import Mathlib.Data.Finset.Card
import Mathlib.Order.WellFounded
import SpatialGrammar.Proofs.SceneReach

namespace SpatialGrammar

variable {α : Type}

/-- What an entity hangs below, and what hangs below it. -/
def Entity.links (e : Entity α) : Option EntityId × List EntityId := (e.parent, e.children)

namespace Scene

/-- A live entity hangs below another one. -/
def Hangs (s : Scene α) (child parent : EntityId) : Prop :=
  ∃ e p, s.get? child = some e ∧ e.parent = some parent ∧ s.get? parent = some p

/-- An entity is another one or below it. -/
def Beneath (s : Scene α) : EntityId → EntityId → Prop := Relation.ReflTransGen s.Hangs

/-- The entities form a forest: parents are live, an entity lists each of those that hang below it
once and nothing else, and every way up ends. -/
structure Forest (s : Scene α) : Prop where
  parent_live : ∀ id e p, s.get? id = some e → e.parent = some p → ∃ ep, s.get? p = some ep
  mem_children_iff : ∀ id e c, s.get? id = some e → (c ∈ e.children ↔ s.Hangs c id)
  nodup : ∀ id e, s.get? id = some e → e.children.Nodup
  founded : WellFounded fun parent child => s.Hangs child parent

variable {s t : Scene α} {c p q id top : EntityId} {e : Entity α}

/-! ### Ways up -/

theorem Hangs.child_live (h : s.Hangs c p) : ∃ e, s.get? c = some e :=
  let ⟨e, _, he, _, _⟩ := h
  ⟨e, he⟩

theorem Hangs.parent_live (h : s.Hangs c p) : ∃ e, s.get? p = some e :=
  let ⟨_, e, _, _, he⟩ := h
  ⟨e, he⟩

theorem Hangs.lt_size (h : s.Hangs c p) : c < s.entities.size ∧ p < s.entities.size :=
  let ⟨_, _, hc, _, hp⟩ := h
  ⟨Scene.lt_size hc, Scene.lt_size hp⟩

theorem Hangs.unique (h : s.Hangs c p) (h' : s.Hangs c q) : p = q := by
  obtain ⟨e, _, he, hp, -⟩ := h
  obtain ⟨e', _, he', hq, -⟩ := h'
  rw [he] at he'
  obtain rfl := Option.some.inj he'
  exact Option.some.inj (hp.symm.trans hq)

theorem Forest.hangs_iff (h : s.Forest) : s.Hangs c p ↔ (s.get? c).bind Entity.parent = some p := by
  rw [Option.bind_eq_some_iff]
  constructor
  · rintro ⟨e, _, he, hp, -⟩
    exact ⟨e, he, hp⟩
  · rintro ⟨e, he, hp⟩
    obtain ⟨ep, hep⟩ := h.parent_live c e p he hp
    exact ⟨e, ep, he, hp, hep⟩

/-- Both an entity and what it is below are live, unless they are the same. -/
theorem Beneath.eq_or_live (h : s.Beneath id top) :
    id = top ∨ (∃ e, s.get? id = some e) ∧ ∃ e, s.get? top = some e := by
  rcases Relation.ReflTransGen.cases_head h with heq | ⟨_, hfirst, -⟩
  · exact .inl heq
  · rcases Relation.ReflTransGen.cases_tail h with heq | ⟨_, -, hlast⟩
    · exact .inl heq.symm
    · exact .inr ⟨hfirst.child_live, hlast.parent_live⟩

theorem Beneath.mono (hangs : ∀ c p, t.Hangs c p → s.Hangs c p) (h : t.Beneath id top) :
    s.Beneath id top := by
  induction h with
  | refl => exact .refl
  | tail _ hlast ih => exact ih.tail (hangs _ _ hlast)

/-- No entity is above itself. -/
theorem Forest.acyclic (h : s.Forest) (id : EntityId) : ¬ Relation.TransGen s.Hangs id id :=
  fun hcycle => h.founded.transGen.irrefl.irrefl id (Relation.transGen_swap.mpr hcycle)

/-- **An entity has fewer entities above it than there are places.**  Counting them ranks the
entities, from the roots down. -/
theorem Forest.exists_rank (h : s.Forest) :
    ∃ rank : EntityId → Nat, (∀ c p, s.Hangs c p → rank p < rank c) ∧
      (∀ id, rank id ≤ s.entities.size) ∧
      ∀ id e, s.get? id = some e → rank id < s.entities.size := by
  classical
  let above (id : EntityId) : Finset EntityId :=
    (Finset.range s.entities.size).filter fun a => Relation.TransGen s.Hangs id a
  have hcard (id : EntityId) : (above id).card ≤ s.entities.size :=
    (Finset.card_filter_le _ _).trans (Finset.card_range _).le
  have hself (id : EntityId) : id ∉ above id := fun hid => h.acyclic id (Finset.mem_filter.mp hid).2
  refine ⟨fun id => (above id).card, ?_, hcard, ?_⟩
  · intro c p hcp
    have hsubset : above p ⊆ above c := fun a ha =>
      Finset.mem_filter.mpr ⟨(Finset.mem_filter.mp ha).1, .head hcp (Finset.mem_filter.mp ha).2⟩
    have hmem : p ∈ above c :=
      Finset.mem_filter.mpr ⟨Finset.mem_range.mpr hcp.lt_size.2, .single hcp⟩
    exact Finset.card_lt_card ((Finset.ssubset_iff_of_subset hsubset).mpr ⟨p, hmem, hself p⟩)
  · intro id e he
    have hmem : id ∈ Finset.range s.entities.size := Finset.mem_range.mpr (lt_size he)
    have hlt : (above id).card < (Finset.range s.entities.size).card :=
      Finset.card_lt_card ((Finset.ssubset_iff_of_subset (Finset.filter_subset _ _)).mpr
        ⟨id, hmem, hself id⟩)
    rwa [Finset.card_range] at hlt

/-- A walk up that has enough steps meets everything above. -/
theorem Forest.meetsWithin_iff (h : s.Forest) {rank : EntityId → Nat}
    (hrank : ∀ c p, s.Hangs c p → rank p < rank c) {fuel : Nat} (hfuel : rank id < fuel) :
    s.meetsWithin top fuel id = true ↔ s.Beneath id top := by
  induction fuel generalizing id with
  | zero => exact absurd hfuel (Nat.not_lt_zero _)
  | succ fuel ih =>
    have hstep : s.Beneath id top ↔ id = top ∨ ∃ p, s.Hangs id p ∧ s.Beneath p top :=
      Relation.ReflTransGen.cases_head_iff
    unfold meetsWithin
    rw [hstep, Bool.or_eq_true, decide_eq_true_iff]
    refine or_congr_right ?_
    rcases hp : (s.get? id).bind Entity.parent with - | p
    · simp [h.hangs_iff, hp]
    · have hangs : s.Hangs id p := h.hangs_iff.mpr hp
      have hlt : rank p < fuel := Nat.lt_of_lt_of_le (hrank id p hangs) (Nat.le_of_lt_succ hfuel)
      simp only [ih hlt]
      constructor
      · exact fun hbeneath => ⟨p, hangs, hbeneath⟩
      · rintro ⟨q, hq, hbeneath⟩
        exact hangs.unique hq ▸ hbeneath

/-- **The walk to the ancestors of an entity finds all of them.** -/
theorem Forest.isAncestor_iff (h : s.Forest) (top id : EntityId) :
    s.isAncestor top id = true ↔ s.Beneath id top := by
  obtain ⟨rank, hrank, hle, -⟩ := h.exists_rank
  exact h.meetsWithin_iff hrank (Nat.lt_succ_of_le (hle id))

/-- Reparenting is refused where one of the two does not exist and where the parent would be the
child or below it, and then nothing is done. -/
theorem Forest.setParent_refused [Scalar α] (h : s.Forest) (child parent : EntityId)
    (keepWorld : Bool) :
    ((s.setParent child parent keepWorld).1 = false ↔
      s.get? child = none ∨ s.get? parent = none ∨ s.Beneath parent child) ∧
    ((s.setParent child parent keepWorld).1 = false →
      (s.setParent child parent keepWorld).2 = s) := by
  have hrefused : (!s.contains child || !s.contains parent || s.isAncestor child parent) = true ↔
      s.get? child = none ∨ s.get? parent = none ∨ s.Beneath parent child := by
    simp only [Bool.or_eq_true, h.isAncestor_iff, contains, or_assoc, Bool.not_eq_true',
      Option.isSome_eq_false_iff, Option.isNone_iff_eq_none]
  unfold setParent
  split
  · next hif => exact ⟨⟨fun _ => hrefused.mp hif, fun _ => rfl⟩, fun _ => rfl⟩
  · next hif =>
    refine ⟨⟨by rintro ⟨⟩, fun hcases => absurd (hrefused.mpr hcases) hif⟩, by rintro ⟨⟩⟩

section World

variable [Scalar α]

/-- Walks to the world that have enough steps come to the same. -/
theorem Forest.worldWithin_congr (h : s.Forest) {rank : EntityId → Nat}
    (hrank : ∀ c p, s.Hangs c p → rank p < rank c) {fuel fuel' : Nat} (hfuel : rank id < fuel)
    (hfuel' : rank id < fuel') : s.worldWithin fuel id = s.worldWithin fuel' id := by
  induction fuel generalizing fuel' id with
  | zero => exact absurd hfuel (Nat.not_lt_zero _)
  | succ fuel ih =>
    obtain ⟨fuel', rfl⟩ := Nat.exists_eq_succ_of_ne_zero (Nat.ne_zero_of_lt hfuel')
    unfold worldWithin
    rcases he : s.get? id with - | e
    · rfl
    rcases hp : e.parent with - | p
    · simp [hp]
    · obtain ⟨ep, hep⟩ := h.parent_live id e p he hp
      have hlt : rank p < rank id := hrank id p ⟨e, ep, he, hp, hep⟩
      simp only [hp]
      rw [ih (Nat.lt_of_lt_of_le hlt (Nat.le_of_lt_succ hfuel))
        (Nat.lt_of_lt_of_le hlt (Nat.le_of_lt_succ hfuel'))]

/-- **Where an entity stands in the world is composed of all poses above it.** -/
theorem Forest.world?_eq (h : s.Forest) (id : EntityId) :
    s.world? id = match s.get? id with
      | none => none
      | some e =>
        match e.parent with
        | none => some e.pose
        | some p => some (((s.world? p).getD .identity).compose e.pose) := by
  obtain ⟨rank, hrank, -, hlt⟩ := h.exists_rank
  rcases he : s.get? id with - | e
  · unfold world?
    rcases s.entities.size with - | n
    · rfl
    · simp [worldWithin, he]
  · obtain ⟨n, hn⟩ := Nat.exists_eq_succ_of_ne_zero (Nat.ne_zero_of_lt (lt_size he))
    have hid := hlt id e he
    rw [hn] at hid
    rcases hp : e.parent with - | p
    · simp [world?, hn, worldWithin, he, hp]
    · obtain ⟨ep, hep⟩ := h.parent_live id e p he hp
      have hup : rank p < rank id := hrank id p ⟨e, ep, he, hp, hep⟩
      have hworld : s.worldWithin n p = s.worldWithin s.entities.size p :=
        h.worldWithin_congr hrank (Nat.lt_of_lt_of_le hup (Nat.le_of_lt_succ hid)) (hlt p ep hep)
      simp only [world?, hp]
      rw [← hworld, hn]
      simp [worldWithin, he, hp]

end World

/-! ### Changes that keep the tree -/

/-- Two entities that are linked alike. -/
theorem exists_of_links (hlinks : (t.get? id).map Entity.links = (s.get? id).map Entity.links)
    (he : t.get? id = some e) :
    ∃ e', s.get? id = some e' ∧ e'.parent = e.parent ∧ e'.children = e.children := by
  rw [he] at hlinks
  obtain ⟨e', he', hlink⟩ := Option.map_eq_some_iff.mp hlinks.symm
  exact ⟨e', he', Prod.mk.inj hlink⟩

theorem Hangs.congr (hlinks : ∀ id, (t.get? id).map Entity.links = (s.get? id).map Entity.links)
    (h : t.Hangs c p) : s.Hangs c p := by
  obtain ⟨e, ep, he, hp, hep⟩ := h
  obtain ⟨e', he', hparent, -⟩ := exists_of_links (hlinks c) he
  obtain ⟨ep', hep', -, -⟩ := exists_of_links (hlinks p) hep
  exact ⟨e', ep', he', hparent.trans hp, hep'⟩

/-- Where all entities are linked alike, the tree is the same. -/
theorem Forest.congr (h : s.Forest)
    (hlinks : ∀ id, (t.get? id).map Entity.links = (s.get? id).map Entity.links) : t.Forest where
  parent_live id e p he hp := by
    obtain ⟨e', he', hparent, -⟩ := exists_of_links (hlinks id) he
    obtain ⟨ep, hep⟩ := h.parent_live id e' p he' (hparent.trans hp)
    obtain ⟨ep', hep', -, -⟩ := exists_of_links (hlinks p).symm hep
    exact ⟨ep', hep'⟩
  mem_children_iff id e c he := by
    obtain ⟨e', he', -, hchildren⟩ := exists_of_links (hlinks id) he
    rw [← hchildren, h.mem_children_iff id e' c he']
    exact ⟨.congr fun j => (hlinks j).symm, .congr hlinks⟩
  nodup id e he := by
    obtain ⟨e', he', -, hchildren⟩ := exists_of_links (hlinks id) he
    exact hchildren ▸ h.nodup id e' he'
  founded := Subrelation.wf (fun hangs => hangs.congr hlinks) h.founded

theorem Forest.setPose (h : s.Forest) (id : EntityId) (pose : Transform α) :
    (s.setPose id pose).Forest := by
  refine h.congr fun j => ?_
  rw [get?_setPose, Option.map_map]
  rfl

theorem Forest.settle [Scalar α] (h : s.Forest) (id : EntityId) : (s.settle id).Forest := by
  refine h.congr fun j => ?_
  rw [get?_settle, Option.map_map]
  rfl

section Entering

variable {h n : Nat}

/-- What was there is still there after an object has been entered. -/
theorem Entered.live_of_live (he : Entered s h n t) (hid : s.get? id = some e) :
    ∃ e', t.get? id = some e' := by
  rw [he.old id (lt_size hid), hid]
  exact ⟨_, rfl⟩

/-- What hangs below what after an object has been entered. -/
theorem Entered.hangs_iff (hs : s.Forest) (he : Entered s h n t) (hlive : ∃ e, s.get? h = some e) :
    t.Hangs c p ↔ s.Hangs c p ∨ (c = s.entities.size ∧ p = h) ∨
      (s.entities.size < c ∧ c < s.entities.size + 1 + n ∧ p = s.entities.size) := by
  constructor
  · rintro ⟨ec, ep, hc, hparent, -⟩
    rcases (he.parent_eq hc p).mp hparent with ⟨e₀, he₀, hp⟩ | hnew
    · obtain ⟨ep, hep⟩ := hs.parent_live c e₀ p he₀ hp
      exact .inl ⟨e₀, ep, he₀, hp, hep⟩
    · exact .inr hnew
  · intro hcases
    have hc : ∃ ec, t.get? c = some ec := by
      rcases hcases with ⟨_, _, hc, -, -⟩ | ⟨rfl, -⟩ | ⟨hlt, hlt', -⟩
      · exact he.live_of_live hc
      · obtain ⟨e, hobject, -⟩ := he.object
        exact ⟨e, hobject⟩
      · obtain ⟨e, htile, -⟩ := he.tile c hlt hlt'
        exact ⟨e, htile⟩
    have hp : ∃ ep, t.get? p = some ep := by
      rcases hcases with ⟨_, _, -, -, hp⟩ | ⟨-, rfl⟩ | ⟨-, -, rfl⟩
      · exact he.live_of_live hp
      · obtain ⟨e, hh⟩ := hlive
        exact he.live_of_live hh
      · obtain ⟨e, hobject, -⟩ := he.object
        exact ⟨e, hobject⟩
    obtain ⟨ec, hc⟩ := hc
    obtain ⟨ep, hp⟩ := hp
    refine ⟨ec, ep, hc, (he.parent_eq hc p).mpr ?_, hp⟩
    exact hcases.imp_left fun ⟨e, _, he, hparent, _⟩ => ⟨e, he, hparent⟩

/-- **Entering an object and its tiles keeps the tree.** -/
theorem Forest.entered (hs : s.Forest) (he : Entered s h n t) (hlive : ∃ e, s.get? h = some e) :
    t.Forest := by
  have hlt : h < s.entities.size := lt_size hlive.choose_spec
  have hangs {c p : EntityId} := he.hangs_iff (c := c) (p := p) hs hlive
  refine ⟨?_, ?_, ?_, ?_⟩
  · -- parent_live
    intro id e p hid hp
    have hcases := (he.parent_eq hid p).mp hp
    refine (hangs.mpr (hcases.imp_left fun ⟨e₀, he₀, hp⟩ => ?_)).parent_live
    exact (hs.parent_live id e₀ p he₀ hp).elim fun ep hep => ⟨e₀, ep, he₀, hp, hep⟩
  · -- mem_children_iff
    intro id e c hid
    rw [he.mem_children hlt hid, hangs]
    refine or_congr_left ⟨?_, ?_⟩
    · rintro ⟨e₀, he₀, hc⟩
      exact (hs.mem_children_iff id e₀ c he₀).mp hc
    · intro hcp
      obtain ⟨e₀, he₀⟩ := hcp.parent_live
      exact ⟨e₀, he₀, (hs.mem_children_iff id e₀ c he₀).mpr hcp⟩
  · -- nodup: no old entity lists a new one
    intro id e hid
    rcases he.cases hid with ⟨-, e₀, he₀, rfl⟩ | ⟨-, -, hchildren, -⟩ | ⟨-, -, -, hchildren⟩
    · refine List.nodup_append.mpr ⟨hs.nodup id e₀ he₀, by split <;> simp, ?_⟩
      rintro c hc _ hnew rfl
      have hcold := ((hs.mem_children_iff id e₀ c he₀).mp hc).lt_size.1
      split at hnew
      · exact Nat.ne_of_lt hcold (List.mem_singleton.mp hnew)
      · cases hnew
    · exact hchildren ▸ List.nodup_range'
    · exact hchildren ▸ List.nodup_nil
  · -- founded: up from an old entity the way is as before, and from a new one it leads to
    -- an old one
    have hup (id : EntityId) (hid : id < s.entities.size) :
        Acc (fun parent child => t.Hangs child parent) id := by
      induction hs.founded.apply id with
      | intro id _ ih =>
        refine ⟨id, fun p hp => ?_⟩
        rcases hangs.mp hp with hp | ⟨rfl, -⟩ | ⟨hgt, -⟩
        · exact ih p hp hp.lt_size.2
        · exact absurd hid (Nat.lt_irrefl _)
        · exact absurd hid (Nat.lt_asymm hgt)
    have hobject : Acc (fun parent child => t.Hangs child parent) s.entities.size := by
      refine ⟨_, fun p hp => ?_⟩
      rcases hangs.mp hp with hp | ⟨-, rfl⟩ | ⟨hgt, -⟩
      · exact hup p hp.lt_size.2
      · exact hup p hlt
      · exact absurd hgt (Nat.lt_irrefl _)
    refine ⟨fun id => ⟨id, fun p hp => ?_⟩⟩
    rcases hangs.mp hp with hp | ⟨-, rfl⟩ | ⟨-, -, rfl⟩
    · exact hup p hp.lt_size.2
    · exact hup p hlt
    · exact hobject

end Entering

/-- Entering an entity without relations keeps the tree. -/
theorem Forest.insert (hs : s.Forest) (hparent : e.parent = none) (hchildren : e.children = []) :
    (s.insert e).2.Forest := by
  have hget (id : EntityId) := get?_insert s e id
  have hold {id : EntityId} {e₀ : Entity α} (hid : s.get? id = some e₀) :
      (s.insert e).2.get? id = some e₀ := by
    rw [hget, if_neg (Nat.ne_of_lt (lt_size hid)), hid]
  have hangs {c p : EntityId} : (s.insert e).2.Hangs c p ↔ s.Hangs c p := by
    constructor
    · rintro ⟨ec, ep, hc, hp, -⟩
      rw [hget] at hc
      split at hc
      · obtain rfl := Option.some.inj hc
        rw [hparent] at hp
        cases hp
      · obtain ⟨ep, hep⟩ := hs.parent_live c ec p hc hp
        exact ⟨ec, ep, hc, hp, hep⟩
    · rintro ⟨ec, ep, hc, hp, hep⟩
      exact ⟨ec, ep, hold hc, hp, hold hep⟩
  refine ⟨?_, ?_, ?_, Subrelation.wf hangs.mp hs.founded⟩
  · -- parent_live
    intro id e' p hid hp
    rw [hget] at hid
    split at hid
    · obtain rfl := Option.some.inj hid
      rw [hparent] at hp
      cases hp
    · obtain ⟨ep, hep⟩ := hs.parent_live id e' p hid hp
      exact ⟨ep, hold hep⟩
  · -- mem_children_iff: nothing hangs below the new one
    intro id e' c hid
    rw [hangs]
    rw [hget] at hid
    split at hid
    · next heq =>
      obtain rfl := Option.some.inj hid
      have hnone : ¬ s.Hangs c id := fun h => absurd heq (Nat.ne_of_lt h.lt_size.2)
      simp [hchildren, hnone]
    · exact hs.mem_children_iff id e' c hid
  · -- nodup
    intro id e' hid
    rw [hget] at hid
    split at hid
    · obtain rfl := Option.some.inj hid
      exact hchildren ▸ List.nodup_nil
    · exact hs.nodup id e' hid

/-- What hangs below what after a detachment. -/
theorem hangs_detach_iff {child : EntityId} :
    (s.detach child).Hangs c p ↔ c ≠ child ∧ s.Hangs c p := by
  unfold Hangs
  simp only [get?_detach, Option.map_eq_some_iff]
  constructor
  · rintro ⟨_, _, ⟨e, he, rfl⟩, hp, ⟨ep, hep, -⟩⟩
    by_cases hc : c = child
    · simp [hc] at hp
    · exact ⟨hc, e, ep, he, by simpa [hc] using hp, hep⟩
  · rintro ⟨hc, e, ep, he, hp, hep⟩
    exact ⟨_, _, ⟨e, he, rfl⟩, by simpa [hc] using hp, ⟨ep, hep, rfl⟩⟩

/-- Taking an entity away from its parent keeps the tree. -/
theorem Forest.detach (hs : s.Forest) (child : EntityId) : (s.detach child).Forest := by
  refine ⟨?_, ?_, ?_, Subrelation.wf (fun h => (hangs_detach_iff.mp h).2) hs.founded⟩
  · -- parent_live
    intro id e p hid hp
    rw [get?_detach] at hid
    obtain ⟨e, he, rfl⟩ := Option.map_eq_some_iff.mp hid
    have hp' : e.parent = some p := by
      dsimp only at hp
      split at hp
      · cases hp
      · exact hp
    obtain ⟨ep, hep⟩ := hs.parent_live id e p he hp'
    exact ⟨_, by rw [get?_detach, hep]; rfl⟩
  · -- mem_children_iff
    intro id e c hid
    rw [get?_detach] at hid
    obtain ⟨e, he, rfl⟩ := Option.map_eq_some_iff.mp hid
    rw [hangs_detach_iff, ← hs.mem_children_iff id e c he]
    dsimp only
    split
    · simp [and_comm]
    · next hnot =>
      refine ⟨fun hc => ⟨?_, hc⟩, fun hc => hc.2⟩
      rintro rfl
      exact hnot (hs.hangs_iff.mp ((hs.mem_children_iff id e c he).mp hc))
  · -- nodup
    intro id e hid
    rw [get?_detach] at hid
    obtain ⟨e, he, rfl⟩ := Option.map_eq_some_iff.mp hid
    dsimp only
    split
    · exact (hs.nodup id e he).filter _
    · exact hs.nodup id e he

/-- What hangs below what after an attachment. -/
theorem hangs_attach_iff {child parent : EntityId} (hchild : ∃ e, s.get? child = some e)
    (hparent : ∃ e, s.get? parent = some e) :
    (s.attach child parent).Hangs c p ↔ (c = child ∧ p = parent) ∨ (c ≠ child ∧ s.Hangs c p) := by
  unfold Hangs
  simp only [get?_attach, Option.map_eq_some_iff]
  constructor
  · rintro ⟨_, _, ⟨e, he, rfl⟩, hp, ⟨ep, hep, -⟩⟩
    by_cases hc : c = child
    · exact .inl ⟨hc, by simpa [hc, eq_comm] using hp⟩
    · exact .inr ⟨hc, e, ep, he, by simpa [hc] using hp, hep⟩
  · rintro (⟨rfl, rfl⟩ | ⟨hc, e, ep, he, hp, hep⟩)
    · obtain ⟨e, he⟩ := hchild
      obtain ⟨ep, hep⟩ := hparent
      exact ⟨_, _, ⟨e, he, rfl⟩, by simp, ⟨ep, hep, rfl⟩⟩
    · exact ⟨_, _, ⟨e, he, rfl⟩, by simpa [hc] using hp, ⟨ep, hep, rfl⟩⟩

/-- **Hanging a root below an entity that is not below it keeps the tree.** -/
theorem Forest.attach (hs : s.Forest) {child parent : EntityId}
    (hchild : ∃ e, s.get? child = some e) (hparent : ∃ e, s.get? parent = some e)
    (hroot : ∀ p, ¬ s.Hangs child p)
    (hnot : ¬ s.Beneath parent child) : (s.attach child parent).Forest := by
  have hangs {c p : EntityId} := hangs_attach_iff (c := c) (p := p) hchild hparent
  have hlive {id : EntityId} (hid : ∃ e, s.get? id = some e) :
      ∃ e, (s.attach child parent).get? id = some e := by
    obtain ⟨e, he⟩ := hid
    exact ⟨_, by rw [get?_attach, he]; rfl⟩
  refine ⟨?_, ?_, ?_, ?_⟩
  · -- parent_live
    intro id e p hid hp
    rw [get?_attach] at hid
    obtain ⟨e, he, rfl⟩ := Option.map_eq_some_iff.mp hid
    dsimp only at hp
    split at hp
    · exact hlive (Option.some.inj hp ▸ hparent)
    · exact hlive (hs.parent_live id e p he hp)
  · -- mem_children_iff
    intro id e c hid
    rw [get?_attach] at hid
    obtain ⟨e, he, rfl⟩ := Option.map_eq_some_iff.mp hid
    have hnew : c ∈ (if id = parent then [child] else []) ↔ c = child ∧ id = parent := by
      split <;> simp [*]
    rw [hangs, List.mem_append, hs.mem_children_iff id e c he, hnew]
    constructor
    · rintro (hc | hc)
      · exact .inr ⟨fun heq => hroot id (heq ▸ hc), hc⟩
      · exact .inl hc
    · rintro (hc | ⟨-, hc⟩)
      · exact .inr hc
      · exact .inl hc
  · -- nodup: the child was listed by none
    intro id e hid
    rw [get?_attach] at hid
    obtain ⟨e, he, rfl⟩ := Option.map_eq_some_iff.mp hid
    refine List.nodup_append.mpr ⟨hs.nodup id e he, by split <;> simp, ?_⟩
    rintro c hc _ hnew rfl
    split at hnew
    · rw [List.mem_singleton.mp hnew] at hc
      exact hroot id ((hs.mem_children_iff id e child he).mp hc)
    · cases hnew
  · -- founded: from what is not below the child the way up is as before, and one such is its
    -- new parent
    have hfar (id : EntityId) (hid : ¬ s.Beneath id child) :
        Acc (fun parent' child' => (s.attach child parent).Hangs child' parent') id := by
      induction hs.founded.apply id with
      | intro id _ ih =>
        refine ⟨id, fun p hp => ?_⟩
        rcases hangs.mp hp with ⟨rfl, -⟩ | ⟨-, hp⟩
        · exact absurd .refl hid
        · exact ih p hp fun hbeneath => hid (.head hp hbeneath)
    refine ⟨fun id => ?_⟩
    induction hs.founded.apply id with
    | intro id _ ih =>
      refine ⟨id, fun p hp => ?_⟩
      rcases hangs.mp hp with ⟨-, rfl⟩ | ⟨-, hp⟩
      · exact hfar p hnot
      · exact ih p hp

/-- **Reparenting keeps the tree.** -/
theorem Forest.setParent [Scalar α] (hs : s.Forest) (child parent : EntityId) (keepWorld : Bool) :
    (s.setParent child parent keepWorld).2.Forest := by
  rcases s.setParent_cases child parent keepWorld with heq | ⟨⟨c, hc⟩, ⟨p, hp⟩, hnot, heq⟩
  · rw [heq]
    exact hs
  · have hattached : ((s.detach child).attach child parent).Forest := by
      refine (hs.detach child).attach ?_ ?_ ?_ ?_
      · exact ⟨_, by rw [get?_detach, hc]; rfl⟩
      · exact ⟨_, by rw [get?_detach, hp]; rfl⟩
      · exact fun q hq => (hangs_detach_iff.mp hq).1 rfl
      · intro hbeneath
        have hbefore : s.Beneath parent child :=
          hbeneath.mono fun _ _ h => (hangs_detach_iff.mp h).2
        rw [(hs.isAncestor_iff child parent).mpr hbefore] at hnot
        cases hnot
    rcases heq with heq | ⟨pose, heq⟩ <;> rw [heq]
    · exact hattached
    · exact hattached.setPose child pose

/-- Methods keep the tree. -/
theorem Forest.dispatch [Scalar α] [Numeral α] (hs : s.Forest) (id : EntityId) (call : MethodCall) :
    (s.dispatch id call).2.Forest := by
  rcases s.dispatch_cases id call with heq | ⟨pose, heq⟩ | ⟨parent, keep, -, heq⟩ <;> rw [heq]
  · exact hs
  · exact hs.setPose id pose
  · exact hs.setParent id parent keep

/-- **Spawning keeps the tree.** -/
theorem Forest.spawn [Scalar α] {ρ : Type} [RandomSource ρ α] (hs : s.Forest)
    (request : SpawnRequest) (source : ρ) : (s.spawn request source).2.1.Forest := by
  obtain ⟨-, n, he⟩ := s.spawn_spec request source
  rcases s.ensureHolder_cases request.name with ⟨h, -, hlive, heq⟩ | ⟨-, e, -, hp, hc, heq⟩ <;>
    rw [heq] at he
  · exact hs.entered he hlive
  · have hroot : Scene.Forest { (s.insert e).2 with holder := some s.entities.size } :=
      (hs.insert hp hc).congr fun _ => rfl
    exact hroot.entered he ⟨e, (get?_insert s e _).trans (if_pos rfl)⟩

/-! ### Removing -/

/-- Of some entities each that is below one of `tops` is taken out, and no other. -/
structure Cleared (s : Scene α) (tops : List EntityId) (t : Scene α) : Prop where
  gone : ∀ id, (∃ top ∈ tops, s.Beneath id top) → t.get? id = none
  kept : ∀ id, (∀ top ∈ tops, ¬ s.Beneath id top) → t.get? id = s.get? id

/-- What is left of a forest when entities are taken out of it: entities that are still there are
listed as before, and ranked as before, below `n`. -/
structure Linked (n : Nat) (rank : EntityId → Nat) (s : Scene α) : Prop where
  mem_children_iff : ∀ id e c ec, s.get? id = some e → s.get? c = some ec →
    (c ∈ e.children ↔ s.Hangs c id)
  rank_lt : ∀ c p, s.Hangs c p → rank p < rank c
  rank_bound : ∀ id e, s.get? id = some e → rank id < n

section Clearing

variable {n : Nat} {rank : EntityId → Nat} {tops : List EntityId}

theorem Forest.linked (hs : s.Forest) : ∃ rank, Linked s.entities.size rank s := by
  obtain ⟨rank, hrank, -, hlt⟩ := hs.exists_rank
  exact ⟨rank, fun id e c _ he _ => hs.mem_children_iff id e c he, hrank, hlt⟩

theorem Hangs.of_part (hpart : ∀ id e, t.get? id = some e → s.get? id = some e) (h : t.Hangs c p) :
    s.Hangs c p := by
  obtain ⟨e, ep, he, hp, hep⟩ := h
  exact ⟨e, ep, hpart c e he, hp, hpart p ep hep⟩

theorem Linked.of_part (h : Linked n rank s)
    (hpart : ∀ id e, t.get? id = some e → s.get? id = some e) : Linked n rank t where
  mem_children_iff id e c ec he hc := by
    rw [h.mem_children_iff id e c ec (hpart id e he) (hpart c ec hc)]
    refine ⟨?_, .of_part hpart⟩
    rintro ⟨ec', ep, hc', hp, hep⟩
    rw [hpart c ec hc] at hc'
    obtain rfl := Option.some.inj hc'
    exact ⟨ec, e, hc, hp, he⟩
  rank_lt c p hcp := h.rank_lt c p (hcp.of_part hpart)
  rank_bound id e he := h.rank_bound id e (hpart id e he)

/-- Clearing takes entities out and changes nothing else. -/
theorem Cleared.part (h : Cleared s tops t) : ∀ id e, t.get? id = some e → s.get? id = some e := by
  intro id e he
  by_cases hid : ∃ top ∈ tops, s.Beneath id top
  · rw [h.gone id hid] at he
    cases he
  · rw [← he, h.kept id fun top htop hbeneath => hid ⟨top, htop, hbeneath⟩]

/-- What is beneath another entity and is not cleared with `tops` is beneath it still. -/
theorem Cleared.beneath (h : Cleared s tops t) (hid : s.Beneath id top)
    (hkept : ∀ top ∈ tops, ¬ s.Beneath id top) : t.Beneath id top := by
  induction hid using Relation.ReflTransGen.head_induction_on with
  | refl => exact .refl
  | @head id p hp _ ih =>
    have hkept' : ∀ top ∈ tops, ¬ s.Beneath p top :=
      fun top htop hbeneath => hkept top htop (.head hp hbeneath)
    obtain ⟨e, ep, he, hparent, hep⟩ := hp
    exact .head ⟨e, ep, (h.kept id hkept).trans he, hparent, (h.kept p hkept').trans hep⟩
      (ih hkept')

/-- What is below an entity is, once that is gone, below one of those
that hung directly below it. -/
theorem Beneath.eq_or_erase (h : s.Beneath id top) :
    id = top ∨ ∃ c, s.Hangs c top ∧ (s.erase top).Beneath id c := by
  induction h using Relation.ReflTransGen.head_induction_on with
  | refl => exact .inl rfl
  | @head id p hp _ ih =>
    by_cases hid : id = top
    · exact .inl hid
    refine .inr ?_
    rcases ih with rfl | ⟨c, hc, hbeneath⟩
    · exact ⟨id, hp, .refl⟩
    · by_cases hptop : p = top
      · exact ⟨id, hptop ▸ hp, .refl⟩
      · obtain ⟨e, ep, he, hparent, hep⟩ := hp
        refine ⟨c, hc, .head ⟨e, ep, ?_, hparent, ?_⟩ hbeneath⟩
        · rw [get?_erase, if_neg hid, he]
        · rw [get?_erase, if_neg hptop, hep]

/-- Nothing is cleared with an entity that is not there. -/
theorem Cleared.of_dead (hid : s.get? id = none) : Cleared s [id] s where
  gone := by
    rintro j ⟨top, htop, hbeneath⟩
    obtain rfl := List.mem_singleton.mp htop
    rcases hbeneath.eq_or_live with rfl | ⟨-, e, he⟩
    · exact hid
    · rw [hid] at he
      cases he
  kept := fun _ _ => rfl

/-- Clearing several entities one after another. -/
theorem Linked.foldl {f : EntityId → Scene α → Scene α} {P : EntityId → Prop} (h : Linked n rank s)
    (hf : ∀ {s : Scene α} {id}, Linked n rank s → (∀ e, s.get? id = some e → P id) →
      Cleared s [id] (f id s)) (hdeep : ∀ id ∈ tops, ∀ e, s.get? id = some e → P id) :
    Cleared s tops (tops.foldl (fun s id => f id s) s) := by
  induction tops generalizing s with
  | nil => exact ⟨by simp, fun _ _ => rfl⟩
  | cons first rest ih =>
    -- what is beneath a later one is either gone with the first or beneath it still
    have hfirst := hf h (hdeep first List.mem_cons_self)
    have hrest := ih (h.of_part hfirst.part) fun id hid e he =>
      hdeep id (List.mem_cons_of_mem first hid) e (hfirst.part id e he)
    rw [List.foldl_cons]
    refine ⟨?_, ?_⟩
    · intro id hid
      by_cases hgone : s.Beneath id first
      · refine Option.eq_none_iff_forall_ne_some.mpr fun e he => ?_
        have hsome := hrest.part id e he
        rw [hfirst.gone id ⟨first, List.mem_cons_self, hgone⟩] at hsome
        cases hsome
      · obtain ⟨top, htop, hbeneath⟩ := hid
        rcases List.mem_cons.mp htop with rfl | htop
        · exact absurd hbeneath hgone
        · exact hrest.gone id ⟨top, htop, hfirst.beneath hbeneath (by simpa using hgone)⟩
    · intro id hid
      rw [hrest.kept id fun top htop hbeneath => hid top (List.mem_cons_of_mem first htop)
        (hbeneath.mono fun _ _ => .of_part hfirst.part)]
      exact hfirst.kept id fun top htop => hid top (by simp [List.mem_singleton.mp htop])

/-- **A removal that goes deep enough takes out everything below.** -/
theorem Linked.clear (h : Linked n rank s) {depth : Nat}
    (hdepth : ∀ e, s.get? id = some e → n ≤ rank id + depth) :
    Cleared s [id] (clear depth id s) := by
  induction depth generalizing s id with
  | zero =>
    refine .of_dead (Option.eq_none_iff_forall_ne_some.mpr fun e he => ?_)
    exact Nat.not_lt.mpr (hdepth e he) (h.rank_bound id e he)
  | succ depth ih =>
    unfold Scene.clear
    split
    · next hid => exact .of_dead hid
    · next e he =>
      have hpart : ∀ j ej, (s.erase id).get? j = some ej → s.get? j = some ej := by
        intro j ej hj
        rw [get?_erase] at hj
        split at hj
        · cases hj
        · exact hj
      -- of the children those that are there hang below the entity, so they are ranked higher
      have hbelow : ∀ c ∈ e.children, ∀ ec, s.get? c = some ec → s.Hangs c id :=
        fun c hc ec hec => (h.mem_children_iff id e c ec he hec).mp hc
      have hchildren : Cleared (s.erase id) e.children
          (e.children.foldl (fun s child => Scene.clear depth child s) (s.erase id)) := by
        refine Linked.foldl (P := fun c => n ≤ rank c + depth) (h.of_part hpart) ih ?_
        intro c hc ec hec
        have hlt := h.rank_lt c id (hbelow c hc ec (hpart c ec hec))
        have hid := hdepth e he
        omega
      refine ⟨?_, ?_⟩
      · rintro j ⟨top, htop, hj⟩
        obtain rfl := List.mem_singleton.mp htop
        rcases hj.eq_or_erase with rfl | ⟨c, hc, hjc⟩
        · refine Option.eq_none_iff_forall_ne_some.mpr fun ej hej => ?_
          have hsome := hchildren.part j ej hej
          simp [get?_erase] at hsome
        · obtain ⟨ec, hec⟩ := hc.child_live
          exact hchildren.gone j ⟨c, (h.mem_children_iff top e c ec he hec).mpr hc, hjc⟩
      · intro j hj
        have hbeneath : ¬ s.Beneath j id := hj id (List.mem_singleton.mpr rfl)
        have hne : j ≠ id := by
          rintro rfl
          exact hbeneath .refl
        have herase : (s.erase id).get? j = s.get? j := by rw [get?_erase, if_neg hne]
        rw [← herase]
        rcases hej : (s.erase id).get? j with - | ej
        · refine Option.eq_none_iff_forall_ne_some.mpr fun ej hej' => ?_
          rw [hchildren.part j ej hej'] at hej
          cases hej
        · rw [← hej]
          refine hchildren.kept j fun c hc hjc => hbeneath ?_
          have hlive : ∃ ec, (s.erase id).get? c = some ec := by
            rcases hjc.eq_or_live with rfl | ⟨-, hlive⟩
            · exact ⟨ej, hej⟩
            · exact hlive
          obtain ⟨ec, hec⟩ := hlive
          exact (hjc.mono fun _ _ => .of_part hpart).tail (hbelow c hc ec (hpart c ec hec))

end Clearing

theorem beneath_detach_iff : (s.detach top).Beneath id top ↔ s.Beneath id top := by
  constructor
  · exact fun h => h.mono fun _ _ hangs => (hangs_detach_iff.mp hangs).2
  · intro h
    induction h using Relation.ReflTransGen.head_induction_on with
    | refl => exact .refl
    | @head id p hp _ ih =>
      by_cases hid : id = top
      · exact hid ▸ .refl
      · exact .head (hangs_detach_iff.mpr ⟨hid, hp⟩) ih

/-- **Removing takes out an entity and everything below it.**  Of the rest only the list
of its parent is changed. -/
theorem Forest.get?_remove (hs : s.Forest) (top id : EntityId) :
    (s.Beneath id top → (s.remove top).get? id = none) ∧
    (¬ s.Beneath id top → (s.remove top).get? id = (s.detach top).get? id) := by
  obtain ⟨rank, hlinked⟩ := (hs.detach top).linked
  rw [size_detach] at hlinked
  have hclear : Cleared (s.detach top) [top] (s.remove top) :=
    hlinked.clear fun _ _ => Nat.le_add_left _ _
  have hgone := hclear.gone id
  have hkept := hclear.kept id
  simp only [List.mem_singleton, exists_eq_left, forall_eq, beneath_detach_iff] at hgone hkept
  exact ⟨hgone, hkept⟩

/-- Removing keeps the tree. -/
theorem Forest.remove (hs : s.Forest) (top : EntityId) : (s.remove top).Forest := by
  have hd := hs.detach top
  have hgone {j : EntityId} := (hs.get?_remove top j).1
  have hkept {j : EntityId} := (hs.get?_remove top j).2
  have hstays {j : EntityId} {e : Entity α} (he : (s.remove top).get? j = some e) :
      ¬ s.Beneath j top ∧ (s.detach top).get? j = some e := by
    by_cases hj : s.Beneath j top
    · rw [hgone hj] at he
      cases he
    · exact ⟨hj, (hkept hj).symm.trans he⟩
  have hangs {c p : EntityId} (hcp : (s.remove top).Hangs c p) : (s.detach top).Hangs c p :=
    hcp.of_part fun _ _ he => (hstays he).2
  refine ⟨?_, ?_, ?_, Subrelation.wf hangs hd.founded⟩
  · -- parent_live: what stays does not hang below what is gone
    intro j e p hj hp
    obtain ⟨hnot, he⟩ := hstays hj
    obtain ⟨ep, hep⟩ := hd.parent_live j e p he hp
    have hjp : s.Hangs j p := (hangs_detach_iff.mp ⟨e, ep, he, hp, hep⟩).2
    exact ⟨ep, (hkept fun hbeneath => hnot (.head hjp hbeneath)).trans hep⟩
  · -- mem_children_iff: a child of one that stays is not the entity itself, which has been
    -- detached, so it stays too
    intro j e c hj
    obtain ⟨hnot, he⟩ := hstays hj
    rw [hd.mem_children_iff j e c he]
    refine ⟨fun hcj => ?_, hangs⟩
    obtain ⟨hne, hcj'⟩ := hangs_detach_iff.mp hcj
    have hnot' : ¬ s.Beneath c top := fun hbeneath => by
      rcases Relation.ReflTransGen.cases_head hbeneath with heq | ⟨p, hp, hbeneath⟩
      · exact hne heq
      · exact hnot (hp.unique hcj' ▸ hbeneath)
    obtain ⟨ec, _, hec, hparent, -⟩ := hcj
    exact ⟨ec, e, (hkept hnot').trans hec, hparent, hj⟩
  · -- nodup
    exact fun j e hj => hd.nodup j e (hstays hj).2

end Scene

end SpatialGrammar
