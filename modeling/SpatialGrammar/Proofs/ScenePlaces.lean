/-
SpatialGrammar/Proofs/ScenePlaces.lean

What each change of a scene does to its places.

The tree of a scene is kept in places that refer to each other by handle, so everything
about it is said through `get?`: what is found in a place after a change.  In a scene
that can come about, no place refers to one that has not been given out yet
(`Scene.Reachable.grounded`), so whatever is entered next is referred to by nothing.
-/
import SpatialGrammar.Proofs.RunRule
import SpatialGrammar.Scene.Confinement

namespace SpatialGrammar

variable {α : Type}

/-- The producer at a depth is one of the lineage. -/
theorem Method.mem_of_producerAt? {lineage : List (Option EntityId)} {depth : Arguments.Depth}
    {p : EntityId} (h : producerAt? lineage depth = some p) : some p ∈ lineage := by
  unfold producerAt? at h
  dsimp only at h
  split at h
  · cases h
  · exact List.mem_of_getElem? (Option.join_eq_some_iff.mp h)

namespace Scene

/-! ### Places -/

variable {s : Scene α} {id : EntityId} {e : Entity α}

/-- Only places that have been given out hold anything. -/
theorem lt_size (h : s.get? id = some e) : id < s.entities.size := by
  refine Nat.lt_of_not_le fun hle => ?_
  have hnone : s.get? id = none := by
    simp [get?, Array.getD_eq_getD_getElem?, Array.getElem?_eq_none hle]
  rw [h] at hnone
  cases hnone

@[simp] theorem size_modify (s : Scene α) (id : EntityId) (f : Entity α → Entity α) :
    (s.modify id f).entities.size = s.entities.size := by
  simp [modify]

@[simp] theorem holder_modify (s : Scene α) (id : EntityId) (f : Entity α → Entity α) :
    (s.modify id f).holder = s.holder := rfl

@[simp] theorem size_erase (s : Scene α) (id : EntityId) :
    (s.erase id).entities.size = s.entities.size := by
  simp [erase]

@[simp] theorem holder_erase (s : Scene α) (id : EntityId) : (s.erase id).holder = s.holder := rfl

@[simp] theorem size_attach (s : Scene α) (child parent : EntityId) :
    (s.attach child parent).entities.size = s.entities.size := by
  simp [attach]

@[simp] theorem holder_attach (s : Scene α) (child parent : EntityId) :
    (s.attach child parent).holder = s.holder := rfl

@[simp] theorem size_detach (s : Scene α) (child : EntityId) :
    (s.detach child).entities.size = s.entities.size := by
  unfold detach
  split <;> simp

/-- Taking an entity away from its parent touches nothing but places. -/
theorem detach_rest (s : Scene α) (child : EntityId) :
    s.detach child = { s with entities := (s.detach child).entities } := by
  unfold detach
  split <;> rfl

@[simp] theorem holder_detach (s : Scene α) (child : EntityId) :
    (s.detach child).holder = s.holder := by
  rw [detach_rest]

@[simp] theorem size_insert (s : Scene α) (e : Entity α) :
    (s.insert e).2.entities.size = s.entities.size + 1 := by
  simp [insert]

@[simp] theorem holder_insert (s : Scene α) (e : Entity α) : (s.insert e).2.holder = s.holder := rfl

@[simp] theorem size_insertUnder (s : Scene α) (e : Entity α) (parent : EntityId) :
    (s.insertUnder e parent).2.entities.size = s.entities.size + 1 := by
  simp [insertUnder]

@[simp] theorem holder_insertUnder (s : Scene α) (e : Entity α) (parent : EntityId) :
    (s.insertUnder e parent).2.holder = s.holder := rfl

/-- What an attachment leaves in each place. -/
theorem get?_attach (s : Scene α) (child parent id : EntityId) :
    (s.attach child parent).get? id = (s.get? id).map fun e => { e with
      parent := if id = child then some parent else e.parent
      children := e.children ++ if id = parent then [child] else [] } := by
  unfold attach
  rw [get?_modify, get?_modify]
  rcases s.get? id with - | e
  · simp
  · by_cases hc : id = child
    · simp only [if_pos hc, Option.map_some]
      split <;> simp
    · simp only [if_neg hc, Option.map_some]
      split <;> simp

/-- What a detachment leaves in each place. -/
theorem get?_detach (s : Scene α) (child id : EntityId) :
    (s.detach child).get? id = (s.get? id).map fun e => { e with
      parent := if id = child then none else e.parent
      children := if (s.get? child).bind Entity.parent = some id then e.children.filter (· ≠ child)
        else e.children } := by
  unfold detach
  split
  · next hnone =>
    rcases he : s.get? id with - | e
    · rfl
    · by_cases hc : id = child
      · rw [← hc, he] at hnone ⊢
        rcases e with ⟨_, _, _, _, parent, _, _⟩
        obtain rfl : parent = none := hnone
        simp
      · simp only [hnone, if_neg hc]
        simp
  · next parent hparent =>
    rw [get?_modify, get?_modify, hparent]
    rcases s.get? id with - | e
    · simp
    · by_cases hp : id = parent
      · simp only [hp, if_true]
        split <;> simp
      · simp only [if_neg hp, if_neg (show ¬some parent = some id by simpa [eq_comm] using hp)]
        split <;> simp

/-- What is found after an entity has been entered below another one. -/
theorem get?_insertUnder {parent : EntityId} (hlt : parent < s.entities.size) (id : EntityId) :
    (s.insertUnder e parent).2.get? id =
      if id = s.entities.size then some { e with
        parent := some parent }
      else (s.get? id).map fun e => { e with
        children := e.children ++ if id = parent then [s.entities.size] else [] } := by
  have hu : (s.insertUnder e parent).2 = (s.insert e).2.attach s.entities.size parent := rfl
  rw [hu, get?_attach, get?_insert]
  split
  · next hid => simp [hid, Nat.ne_of_gt hlt]
  · rfl

/-- A walk down gives out no place and takes none back. -/
@[simp] theorem size_clear (depth : Nat) (id : EntityId) (s : Scene α) :
    (clear depth id s).entities.size = s.entities.size := by
  induction depth generalizing id s with
  | zero => rfl
  | succ depth ih =>
    unfold clear
    split
    · rfl
    · refine List.foldlRecOn (motive := fun t : Scene α => t.entities.size = s.entities.size) _ _
        (size_erase ..) fun t ht c _ => ?_
      exact (ih c t).trans ht

/-- It touches nothing but places. -/
theorem clear_rest (depth : Nat) (id : EntityId) (s : Scene α) :
    clear depth id s = { s with entities := (clear depth id s).entities } := by
  induction depth generalizing id s with
  | zero => rfl
  | succ depth ih =>
    unfold clear
    split
    · rfl
    · refine List.foldlRecOn (motive := fun t : Scene α => t = { s with entities := t.entities })
        _ _ rfl fun t ht c _ => ?_
      rw [ih c t, ht]

@[simp] theorem size_remove (s : Scene α) (id : EntityId) :
    (s.remove id).entities.size = s.entities.size := by
  unfold remove
  rw [size_clear, size_detach]

/-- Nor does a removal touch anything else. -/
theorem remove_rest (s : Scene α) (id : EntityId) :
    s.remove id = { s with entities := (s.remove id).entities } := by
  have hclear := clear_rest s.entities.size id (s.detach id)
  rw [detach_rest] at hclear
  unfold remove
  rw [detach_rest]
  exact hclear

@[simp] theorem holder_remove (s : Scene α) (id : EntityId) : (s.remove id).holder = s.holder := by
  rw [remove_rest]

/-- An entity that is as bare as its children is all that a removal takes out. -/
theorem get?_clear_leaf {depth : Nat} (hdepth : 0 < depth)
    (hleaf : ∀ e, s.get? id = some e → e.children = []) (other : EntityId) :
    (clear depth id s).get? other = if other = id then none else s.get? other := by
  obtain ⟨depth, rfl⟩ := Nat.exists_eq_succ_of_ne_zero (Nat.ne_of_gt hdepth)
  unfold clear
  split
  · next hnone =>
    split
    · next h => rw [h, hnone]
    · rfl
  · next e he =>
    rw [hleaf e he, List.foldl_nil, get?_erase]

/-- Likewise for several such entities. -/
theorem get?_foldl_clear {depth : Nat} (hdepth : 0 < depth) {cs : List EntityId}
    (hleaf : ∀ c ∈ cs, ∀ ec, s.get? c = some ec → ec.children = []) (other : EntityId) :
    (cs.foldl (fun s child => clear depth child s) s).get? other =
      if other ∈ cs then none else s.get? other := by
  induction cs generalizing s with
  | nil => simp
  | cons c cs ih =>
    have hc := get?_clear_leaf hdepth (hleaf c List.mem_cons_self)
    rw [List.foldl_cons, ih]
    · rw [hc]
      by_cases hcs : other ∈ cs
      · simp [hcs]
      · by_cases ho : other = c
        · simp [ho]
        · simp [hcs, ho]
    · -- those that are still there are as bare as before
      intro d hd ed hed
      rw [hc] at hed
      split at hed
      · cases hed
      · exact hleaf d (List.mem_cons_of_mem _ hd) ed hed

/-- An entity whose children have none goes with its children, and nothing else does. -/
theorem get?_clear_flat {depth : Nat} (h : s.get? id = some e) (hdepth : 1 < depth)
    (hself : id ∉ e.children)
    (hleaf : ∀ c ∈ e.children, ∀ ec, s.get? c = some ec → ec.children = []) (other : EntityId) :
    (clear depth id s).get? other = if other = id ∨ other ∈ e.children then none
      else s.get? other := by
  -- the entity is erased first, and then each child is cleared as a leaf of what is left
  obtain ⟨depth, rfl⟩ := Nat.exists_eq_add_of_lt hdepth
  unfold clear
  simp only [h]
  rw [get?_foldl_clear (Nat.add_pos_left Nat.one_pos depth)]
  · rw [get?_erase]
    by_cases ho : other = id
    · simp [ho, hself]
    · simp [ho]
  · intro c hc ec hec
    rw [get?_erase] at hec
    split at hec
    · cases hec
    · exact hleaf c hc ec hec

/-! ### What spawning and methods come to -/

variable [Scalar α]

/-- The live holder is kept; where there is none, one is entered. -/
theorem ensureHolder_cases (s : Scene α) (firstName : String) :
    (∃ h, s.holder = some h ∧ (∃ e, s.get? h = some e) ∧ s.ensureHolder firstName = (h, s)) ∨
    ((∀ h, s.holder = some h → s.get? h = none) ∧ ∃ e : Entity α, e.kind = .holder ∧
      e.parent = none ∧ e.children = [] ∧ s.ensureHolder firstName =
        (s.entities.size, { (s.insert e).2 with holder := some s.entities.size })) := by
  unfold ensureHolder
  split
  · next h hh =>
    obtain ⟨hsome, hcontains⟩ := Option.filter_eq_some_iff.mp hh
    exact .inl ⟨h, hsome, Option.isSome_iff_exists.mp hcontains, rfl⟩
  · next hnone =>
    refine .inr ⟨?_, _, rfl, rfl, rfl, rfl⟩
    intro h hh
    by_cases hc : s.contains h
    · rw [hh] at hnone
      simp [Option.filter, hc] at hnone
    · simpa [contains] using hc

/-- In either case the holder has a place. -/
theorem ensureHolder_lt (s : Scene α) (firstName : String) :
    (s.ensureHolder firstName).1 < (s.ensureHolder firstName).2.entities.size := by
  rcases s.ensureHolder_cases firstName with ⟨h, -, ⟨e, he⟩, heq⟩ | ⟨-, e, -, -, -, heq⟩ <;>
    rw [heq]
  · exact lt_size he
  · show s.entities.size < (s.insert e).2.entities.size
    rw [size_insert]
    exact Nat.lt_succ_self _

/-- At most one place is given out. -/
theorem size_le_ensureHolder (s : Scene α) (firstName : String) :
    s.entities.size ≤ (s.ensureHolder firstName).2.entities.size := by
  rcases s.ensureHolder_cases firstName with ⟨_, -, -, heq⟩ | ⟨-, e, -, -, -, heq⟩
  · exact Nat.le_of_eq (by rw [heq])
  · have hsize : (s.ensureHolder firstName).2.entities.size = s.entities.size + 1 := by
      rw [heq]
      exact size_insert s e
    rw [hsize]
    exact Nat.le_succ _

/-- The holder is that of the run. -/
theorem holder_ensureHolder (s : Scene α) (firstName : String) :
    (s.ensureHolder firstName).2.holder = some (s.ensureHolder firstName).1 := by
  rcases s.ensureHolder_cases firstName with ⟨h, hh, -, heq⟩ | ⟨-, e, -, -, -, heq⟩ <;> rw [heq]
  exact hh

section Spawning

variable {ρ : Type} [RandomSource ρ α]

/-- The tiles of a chain take the next places, and the generator lists them behind its children. -/
theorem insertTiles_spec (names : Array String) (shapes : Array (TileShape α)) {g : EntityId}
    (ts : List (ChainTile α)) {s : Scene α} (hg : g < s.entities.size) :
    ∃ n, (insertTiles names shapes g ts s).1 = List.range' s.entities.size n ∧
      (insertTiles names shapes g ts s).2.entities.size = s.entities.size + n ∧
      (insertTiles names shapes g ts s).2.holder = s.holder ∧
      (∀ id < s.entities.size, (insertTiles names shapes g ts s).2.get? id =
        (s.get? id).map fun e => { e with
          children := e.children ++ if id = g then List.range' s.entities.size n else [] }) ∧
      ∀ id, s.entities.size ≤ id → id < s.entities.size + n →
        ∃ e, (insertTiles names shapes g ts s).2.get? id = some e ∧ e.parent = some g ∧
          e.children = [] := by
  induction ts generalizing s with
  | nil =>
    refine ⟨0, rfl, rfl, rfl, ?_, ?_⟩
    · intro id _
      simp [insertTiles]
    · intro id hle hlt
      exact absurd hlt (Nat.not_lt.mpr hle)
  | cons t ts ih =>
    unfold insertTiles
    split
    · next name shape hname hshape =>
      let e : Entity α :=
        { Entity.new name (some name) (EntityKind.tile shape) with pose := t.pose }
      obtain ⟨n, hids, hsize, hholder, hold, hnew⟩ := ih (s := (s.insertUnder e g).2)
        (by rw [size_insertUnder]; exact Nat.lt_succ_of_lt hg)
      rw [size_insertUnder] at hids hsize hold hnew
      have hget (id : EntityId) := get?_insertUnder (e := e) hg id
      refine ⟨n + 1, ?_, ?_, ?_, ?_, ?_⟩
      · rw [List.range'_succ]
        exact congrArg (s.entities.size :: ·) hids
      · exact hsize.trans (by omega)
      · exact hholder
      · intro id hid
        refine (hold id (Nat.lt_succ_of_lt hid)).trans ?_
        rw [hget, if_neg (Nat.ne_of_lt hid), Option.map_map]
        by_cases hi : id = g <;> simp [Function.comp_def, hi, List.range'_succ]
      · intro id hle hlt
        rcases Nat.eq_or_lt_of_le hle with rfl | hlt'
        · refine ⟨{ e with parent := some g }, ?_, rfl, rfl⟩
          refine (hold _ (Nat.lt_succ_self _)).trans ?_
          rw [hget, if_pos rfl]
          simp [Nat.ne_of_gt hg]
        · exact hnew id hlt' (by omega)
    · exact ih hg

/-- Filling a generator without children gives it the tiles in the next places and lists them in its
kind. -/
theorem fillGenerator_spec {g : EntityId} (p : GeneratorPrefab) {s : Scene α} (source : ρ)
    {e : Entity α} (he : s.get? g = some e) (hc : e.children = []) :
    (fillGenerator g p s source).1 = s ∨
    ∃ n height, (fillGenerator g p s source).1.entities.size = s.entities.size + n ∧
      (fillGenerator g p s source).1.holder = s.holder ∧
      (∀ id < s.entities.size, (fillGenerator g p s source).1.get? id =
        if id = g then some { e with
          children := List.range' s.entities.size n
          kind := .generator (List.range' s.entities.size n) height }
        else s.get? id) ∧
      ∀ id, s.entities.size ≤ id → id < s.entities.size + n →
        ∃ e, (fillGenerator g p s source).1.get? id = some e ∧ e.parent = some g ∧
          e.children = [] := by
  unfold fillGenerator
  split
  · exact .inl rfl
  · next shapes _ =>
    split
    · exact .inl rfl
    · next chain _ _ =>
      have hg : g < s.entities.size := lt_size he
      obtain ⟨n, hids, hsize, hholder, hold, hnew⟩ :=
        insertTiles_spec p.tiles.toArray shapes.toArray chain.tiles hg
      refine .inr ⟨n, chain.height, ?_, hholder, ?_, ?_⟩
      · exact (size_modify ..).trans hsize
      · intro id hid
        dsimp only
        rw [get?_modify, hold id hid, hids]
        split
        · next hid' => simp [hid', he, hc]
        · simp
      · intro id hle hlt
        obtain ⟨t, ht, hparent, hchildren⟩ := hnew id hle hlt
        refine ⟨t, ?_, hparent, hchildren⟩
        dsimp only
        rw [get?_modify, if_neg (Nat.ne_of_gt (Nat.lt_of_lt_of_le hg hle)), ht]

/-- What entering an object below a holder `h` leaves: the object has the next place and `n`
tiles the places after it; it lists them, and nothing else lists anything new but the
holder, which lists the object. -/
structure Entered (s : Scene α) (h : EntityId) (n : Nat) (s' : Scene α) : Prop where
  size : s'.entities.size = s.entities.size + 1 + n
  holder : s'.holder = s.holder
  old : ∀ id < s.entities.size, s'.get? id = (s.get? id).map fun e => { e with
    children := e.children ++ if id = h then [s.entities.size] else [] }
  object : ∃ e, s'.get? s.entities.size = some e ∧ e.parent = some h ∧
    e.children = List.range' (s.entities.size + 1) n ∧
    (n = 0 ∨ ∃ height, e.kind = .generator (List.range' (s.entities.size + 1) n) height)
  tile : ∀ id, s.entities.size < id → id < s.entities.size + 1 + n →
    ∃ e, s'.get? id = some e ∧ e.parent = some s.entities.size ∧ e.children = []

omit [Scalar α] in
/-- An object without tiles. -/
theorem Entered.of_insertUnder {s : Scene α} {h : EntityId} (hlt : h < s.entities.size)
    {e : Entity α} (hc : e.children = []) : Entered s h 0 (s.insertUnder e h).2 := by
  refine ⟨size_insertUnder .., rfl, ?_, ?_, ?_⟩
  · intro id hid
    rw [get?_insertUnder hlt, if_neg (Nat.ne_of_lt hid)]
  · exact ⟨{ e with parent := some h }, by rw [get?_insertUnder hlt, if_pos rfl], rfl, hc, .inl rfl⟩
  · intro id hle hlt'
    exact absurd hlt' (Nat.not_lt.mpr hle)

/-- A generator, with the tiles that it is filled with. -/
theorem Entered.of_fillGenerator {s : Scene α} {h : EntityId} (hlt : h < s.entities.size)
    {e : Entity α} (hc : e.children = []) (p : GeneratorPrefab) (source : ρ) :
    ∃ n, Entered s h n
      (fillGenerator s.entities.size p (s.insertUnder e h).2 source).1 := by
  have hu := Entered.of_insertUnder hlt hc
  have hget : (s.insertUnder e h).2.get? s.entities.size = some { e with parent := some h } := by
    rw [get?_insertUnder hlt, if_pos rfl]
  rcases fillGenerator_spec p source hget hc with hf | ⟨n, height, hsize, hholder, hold, hnew⟩
  · exact ⟨0, by rw [hf]; exact hu⟩
  · rw [size_insertUnder] at hsize hold hnew
    refine ⟨n, hsize, hholder, ?_, ?_, ?_⟩
    · intro id hid
      rw [hold id (Nat.lt_succ_of_lt hid), if_neg (Nat.ne_of_lt hid)]
      exact hu.old id hid
    · exact ⟨_, (hold _ (Nat.lt_succ_self _)).trans (if_pos rfl), rfl, rfl, .inr ⟨height, rfl⟩⟩
    · exact fun id hle hlt' => hnew id hle hlt'

omit [Scalar α] in
/-- What is found afterwards was there before, or is the object or one of its tiles. -/
theorem Entered.cases {s s' : Scene α} {h : EntityId} {n : Nat} (he : Entered s h n s')
    {id : EntityId} {e : Entity α} (hid : s'.get? id = some e) :
    (id < s.entities.size ∧ ∃ e₀, s.get? id = some e₀ ∧ e = { e₀ with
      children := e₀.children ++ if id = h then [s.entities.size] else [] }) ∨
    (id = s.entities.size ∧ e.parent = some h ∧
      e.children = List.range' (s.entities.size + 1) n ∧
      (n = 0 ∨ ∃ height, e.kind = .generator (List.range' (s.entities.size + 1) n) height)) ∨
    (s.entities.size < id ∧ id < s.entities.size + 1 + n ∧ e.parent = some s.entities.size ∧
      e.children = []) := by
  rcases Nat.lt_trichotomy id s.entities.size with hlt | rfl | hgt
  · rw [he.old id hlt] at hid
    obtain ⟨e₀, he₀, rfl⟩ := Option.map_eq_some_iff.mp hid
    exact .inl ⟨hlt, e₀, he₀, rfl⟩
  · obtain ⟨e', he', hobject⟩ := he.object
    rw [hid] at he'
    obtain rfl := Option.some.inj he'
    exact .inr (.inl ⟨rfl, hobject⟩)
  · have hlt := lt_size hid
    rw [he.size] at hlt
    obtain ⟨e', he', htile⟩ := he.tile id hgt hlt
    rw [hid] at he'
    obtain rfl := Option.some.inj he'
    exact .inr (.inr ⟨hgt, hlt, htile⟩)

omit [Scalar α] in
/-- What is listed afterwards. -/
theorem Entered.mem_children {s s' : Scene α} {h : EntityId} {n : Nat} (he : Entered s h n s')
    (hlt : h < s.entities.size) {id : EntityId} {e : Entity α} (hid : s'.get? id = some e)
    (c : EntityId) :
    c ∈ e.children ↔ (∃ e₀, s.get? id = some e₀ ∧ c ∈ e₀.children) ∨
      (c = s.entities.size ∧ id = h) ∨
      (s.entities.size < c ∧ c < s.entities.size + 1 + n ∧ id = s.entities.size) := by
  have hnone {e₀ : Entity α} (hle : s.entities.size ≤ id) : s.get? id ≠ some e₀ :=
    fun h₀ => Nat.not_lt.mpr hle (lt_size h₀)
  rcases he.cases hid with ⟨hid', e₀, he₀, rfl⟩ | ⟨rfl, -, hchildren, -⟩ | ⟨hgt, -, -, hchildren⟩
  · have hne := Nat.ne_of_lt hid'
    simp only [he₀, List.mem_append, Option.some.injEq, hne, and_false, or_false,
      exists_eq_left']
    refine or_congr_right ?_
    split
    · next heq => simp [heq]
    · next heq => simp [heq]
  · rw [hchildren, List.mem_range'_1]
    have hne := Nat.ne_of_gt hlt
    simp only [hnone (Nat.le_refl _), false_and, exists_false, false_or, hne, and_false, and_true]
    rfl
  · rw [hchildren]
    have hne := Nat.ne_of_gt hgt
    have hne' := Nat.ne_of_gt (Nat.lt_trans hlt hgt)
    simp [hnone (Nat.le_of_lt hgt), hne, hne']

omit [Scalar α] in
/-- What something is below of afterwards. -/
theorem Entered.parent_eq {s s' : Scene α} {h : EntityId} {n : Nat} (he : Entered s h n s')
    {c : EntityId} {ec : Entity α} (hc : s'.get? c = some ec) (p : EntityId) :
    ec.parent = some p ↔ (∃ e₀, s.get? c = some e₀ ∧ e₀.parent = some p) ∨
      (c = s.entities.size ∧ p = h) ∨
      (s.entities.size < c ∧ c < s.entities.size + 1 + n ∧ p = s.entities.size) := by
  have hnone {e₀ : Entity α} (hle : s.entities.size ≤ c) : s.get? c ≠ some e₀ :=
    fun h₀ => Nat.not_lt.mpr hle (lt_size h₀)
  rcases he.cases hc with ⟨hlt, e₀, he₀, rfl⟩ | ⟨rfl, hparent, -, -⟩ | ⟨hgt, hlt, hparent, -⟩
  · simp [he₀, Nat.ne_of_lt hlt, Nat.lt_asymm hlt]
  · simp [hparent, hnone (Nat.le_refl _), eq_comm]
  · simp [hparent, hnone (Nat.le_of_lt hgt), Nat.ne_of_gt hgt, hgt, hlt, eq_comm]

/-- **What spawning comes to.**  The holder is seen to first, and then the object is entered. -/
theorem spawn_spec (request : SpawnRequest) (s : Scene α) (source : ρ) :
    (s.spawn request source).1.1 = (s.ensureHolder request.name).2.entities.size ∧
    ∃ n, Entered (s.ensureHolder request.name).2 (s.ensureHolder request.name).1 n
      (s.spawn request source).2.1 := by
  have hlt := s.ensureHolder_lt request.name
  rcases hh : s.ensureHolder request.name with ⟨h, s₁⟩
  rw [hh] at hlt
  rcases hp : s₁.prefabFor request source with ⟨- | p, source₁⟩
  · have hs : s.spawn request source = ((s₁.entities.size, none),
        (s₁.insertUnder (.new request.name none .marker) h).2, source₁) := by
      simp [spawn, hh, hp, insertUnder, insert]
    rw [hs]
    exact ⟨rfl, 0, .of_insertUnder hlt rfl⟩
  · rcases hk : p.kind with - | shape | g
    · have hs : s.spawn request source = ((s₁.entities.size, none),
          (s₁.insertUnder (.new request.name (some p.name) .marker) h).2, source₁) := by
        simp [spawn, hh, hp, hk, insertUnder, insert]
      rw [hs]
      exact ⟨rfl, 0, .of_insertUnder hlt rfl⟩
    · have hs : s.spawn request source = ((s₁.entities.size, some shape.size),
          (s₁.insertUnder (.new request.name (some p.name) (.tile shape)) h).2, source₁) := by
        simp [spawn, hh, hp, hk, insertUnder, insert]
      rw [hs]
      exact ⟨rfl, 0, .of_insertUnder hlt rfl⟩
    · have hs : (s.spawn request source).1.1 = s₁.entities.size ∧ (s.spawn request source).2.1 =
          (fillGenerator s₁.entities.size g
            (s₁.insertUnder (.new request.name (some p.name) (.generator [] 0)) h).2
            source₁).1 := by
        simp [spawn, hh, hp, hk, insertUnder, insert]
      rw [hs.1, hs.2]
      exact ⟨rfl, Entered.of_fillGenerator hlt rfl g source₁⟩

end Spawning

omit [Scalar α] in
/-- What moving an entity leaves in each place. -/
theorem get?_setPose (s : Scene α) (x : EntityId) (pose : Transform α) (id : EntityId) :
    (s.setPose x pose).get? id =
      (s.get? id).map fun e => { e with pose := if id = x then pose else e.pose } := by
  unfold setPose
  rw [get?_modify]
  split
  · rfl
  · simp

omit [Scalar α] in
/-- What telling an entity of the end leaves in each place. -/
theorem get?_settle (s : Scene α) (x id : EntityId) :
    (s.settle x).get? id =
      (s.get? id).map fun e => { e with settled := if id = x then true else e.settled } := by
  unfold settle
  rw [get?_modify]
  split
  · rfl
  · simp

/-- Reparenting is refused, or it is a detachment and an attachment, after which the entity may be
moved. -/
theorem setParent_cases (s : Scene α) (child parent : EntityId) (keepWorld : Bool) :
    (s.setParent child parent keepWorld).2 = s ∨
    ((∃ e, s.get? child = some e) ∧ (∃ e, s.get? parent = some e) ∧
      s.isAncestor child parent = false ∧
      ((s.setParent child parent keepWorld).2 = (s.detach child).attach child parent ∨
        ∃ pose, (s.setParent child parent keepWorld).2 =
          ((s.detach child).attach child parent).setPose child pose)) := by
  unfold setParent
  split
  · exact .inl rfl
  · next h =>
    simp only [Bool.or_eq_true, Bool.not_eq_true', not_or, Bool.not_eq_true] at h
    obtain ⟨⟨hc, hp⟩, ha⟩ := h
    refine .inr ⟨Option.ne_none_iff_exists'.mp (by simpa [contains] using hc),
      Option.ne_none_iff_exists'.mp (by simpa [contains] using hp), ha, ?_⟩
    rcases keepWorld with - | -
    · exact .inl rfl
    · exact .inr ⟨_, rfl⟩

/-- Reparenting touches nothing but places. -/
theorem setParent_rest (s : Scene α) (child parent : EntityId) (keepWorld : Bool) :
    (s.setParent child parent keepWorld).2 =
      { s with entities := (s.setParent child parent keepWorld).2.entities } := by
  have hdetach := s.detach_rest child
  rcases s.setParent_cases child parent keepWorld with heq | ⟨-, -, -, heq | ⟨pose, heq⟩⟩
  · rw [heq]
  · rw [heq, hdetach]
    rfl
  · rw [heq, hdetach]
    rfl

variable [Numeral α]

/-- A method leaves the scene as it is, or moves the entity, or hangs it below a producer. -/
theorem dispatch_cases (id : EntityId) (call : MethodCall) (s : Scene α) :
    (s.dispatch id call).2 = s ∨ (∃ pose, (s.dispatch id call).2 = s.setPose id pose) ∨
    ∃ parent keepWorld, some parent ∈ call.lineage ∧
      (s.dispatch id call).2 = (s.setParent id parent keepWorld).2 := by
  unfold dispatch
  split
  · exact .inl rfl
  next m _ =>
    show (m.run id call s) = s ∨ _
    rcases m with - | - | - | - | -
    · unfold Method.run Method.runPlace
      dsimp only
      split
      · split
        · split
          · exact .inr (.inl ⟨_, rfl⟩)
          · exact .inl rfl
        · exact .inl rfl
      · exact .inl rfl
    · unfold Method.run Method.runSetPos
      dsimp only
      split
      · exact .inr (.inl ⟨_, rfl⟩)
      · exact .inl rfl
    · unfold Method.run Method.runSetRot
      dsimp only
      split
      · exact .inr (.inl ⟨_, rfl⟩)
      · exact .inl rfl
    · unfold Method.run Method.runSetParent
      dsimp only
      split
      · exact .inl rfl
      · split
        · exact .inl rfl
        · next keep rest _ parent hparent =>
          refine .inr (.inr ⟨parent, _, ?_, rfl⟩)
          obtain ⟨depth, -, hd⟩ := Option.bind_eq_some_iff.mp hparent
          exact Method.mem_of_producerAt? hd
    · unfold Method.run Method.runMove
      dsimp only
      split
      · exact .inr (.inl ⟨_, rfl⟩)
      · exact .inl rfl

/-- A method gives out no place. -/
@[simp] theorem size_dispatch (s : Scene α) (id : EntityId) (call : MethodCall) :
    (s.dispatch id call).2.entities.size = s.entities.size := by
  have hpose (t : Scene α) (pose : Transform α) :
      (t.setPose id pose).entities.size = t.entities.size := size_modify ..
  rcases s.dispatch_cases id call with heq | ⟨pose, heq⟩ | ⟨parent, keep, -, heq⟩ <;> rw [heq]
  · exact hpose s pose
  · rcases s.setParent_cases id parent keep with heq | ⟨-, -, -, heq | ⟨pose, heq⟩⟩ <;> rw [heq]
    · simp
    · rw [hpose, size_attach, size_detach]

/-- It touches nothing but places. -/
theorem dispatch_rest (s : Scene α) (id : EntityId) (call : MethodCall) :
    (s.dispatch id call).2 = { s with entities := (s.dispatch id call).2.entities } := by
  rcases s.dispatch_cases id call with heq | ⟨pose, heq⟩ | ⟨parent, keep, -, heq⟩ <;> rw [heq]
  · rfl
  · exact s.setParent_rest id parent keep

@[simp] theorem holder_dispatch (s : Scene α) (id : EntityId) (call : MethodCall) :
    (s.dispatch id call).2.holder = s.holder := by
  rw [dispatch_rest]

omit [Numeral α] in
/-- Spawning gives out the place of the entity that it makes. -/
theorem spawn_lt_size {ρ : Type} [RandomSource ρ α] (s : Scene α) (request : SpawnRequest)
    (source : ρ) : s.entities.size ≤ (s.spawn request source).1.1 ∧
      (s.spawn request source).1.1 < (s.spawn request source).2.1.entities.size := by
  obtain ⟨hid, n, he⟩ := s.spawn_spec request source
  rw [hid, he.size, Nat.add_assoc]
  refine ⟨?_, Nat.lt_add_of_pos_right (Nat.add_pos_left Nat.one_pos n)⟩
  exact s.size_le_ensureHolder request.name

end Scene

end SpatialGrammar
