/-
SpatialGrammar/Proofs/Writing.lean

How a sentence is written, and what this leaves alone.

A pass and a derivation both read the symbols of one sentence and write another.  The
symbols they write are new: their handles come after all others, in order, and each
has a symbol that was read as its producer.  Of the old symbols none changes its
reading or its producer, and only those that were expanded change their choice, which
is one that the rule table draws for them.  `Writing` says this of what has been
written so far, `Writing.expand` is the step, and `Run.pass_writing` and
`Run.derive_writing` are the two ends to which it is put.
-/
import SpatialGrammar.Proofs.PassRule
import SpatialGrammar.Proofs.Selection

namespace SpatialGrammar

variable {α W ρ : Type}

/-! ### Changes of the arena -/

namespace Arena

@[simp] theorem get_setChosen_self {a : Arena} {id : SymbolId} (h : id < a.size)
    (chosen : Option Nat) : (a.setChosen id chosen).get id = { a.get id with chosen } := by
  simp only [setChosen, get, Array.getD_eq_getD_getElem?, Array.getElem?_modify, if_true]
  rw [Array.getElem?_eq_getElem h]
  rfl

@[simp] theorem get_setChosen_ne {a : Arena} {id j : SymbolId} (h : j ≠ id)
    (chosen : Option Nat) : (a.setChosen id chosen).get j = a.get j := by
  simp [setChosen, get, Array.getD_eq_getD_getElem?, Array.getElem?_modify, h.symm]

@[simp] theorem get_setEntity_self {a : Arena} {id : SymbolId} (h : id < a.size)
    (entity : EntityId) :
    (a.setEntity id entity).get id = { a.get id with entity := some entity } := by
  simp only [setEntity, get, Array.getD_eq_getD_getElem?, Array.getElem?_modify, if_true]
  rw [Array.getElem?_eq_getElem h]
  rfl

@[simp] theorem get_setEntity_ne {a : Arena} {id j : SymbolId} (h : j ≠ id)
    (entity : EntityId) : (a.setEntity id entity).get j = a.get j := by
  simp [setEntity, get, Array.getD_eq_getD_getElem?, Array.getElem?_modify, h.symm]

/-- There is nothing behind the last symbol. -/
theorem get_of_size_le {a : Arena} {id : SymbolId} (h : a.size ≤ id) : a.get id = .absent := by
  simp only [size] at h
  simp [get, Array.getD_eq_getD_getElem?, h]

/-- A choice changes nothing else. -/
theorem get_setChosen (a : Arena) (id j : SymbolId) (chosen : Option Nat) :
    ∃ c, (a.setChosen id chosen).get j = { a.get j with chosen := c } := by
  by_cases hj : j = id
  · subst hj
    by_cases h : j < a.size
    · exact ⟨chosen, get_setChosen_self h chosen⟩
    · rw [get_of_size_le (by simpa using Nat.le_of_not_lt h),
        get_of_size_le (Nat.le_of_not_lt h)]
      exact ⟨none, rfl⟩
  · exact ⟨(a.get j).chosen, get_setChosen_ne hj chosen⟩

/-- An entity changes nothing else. -/
theorem get_setEntity (a : Arena) (id j : SymbolId) (entity : EntityId) :
    ∃ e, (a.setEntity id entity).get j = { a.get j with entity := e } := by
  by_cases hj : j = id
  · subst hj
    by_cases h : j < a.size
    · exact ⟨some entity, get_setEntity_self h entity⟩
    · rw [get_of_size_le (by simpa using Nat.le_of_not_lt h),
        get_of_size_le (Nat.le_of_not_lt h)]
      exact ⟨none, rfl⟩
  · exact ⟨(a.get j).entity, get_setEntity_ne hj entity⟩

/-- An entity is found where it was noted, and where one was before. -/
theorem entity_setEntity {a : Arena} {id j : SymbolId} {entity e : EntityId}
    (h : ((a.setEntity id entity).get j).entity = some e) :
    (j = id ∧ e = entity) ∨ (j ≠ id ∧ (a.get j).entity = some e) := by
  by_cases hj : j = id
  · subst hj
    by_cases hlt : j < a.size
    · rw [get_setEntity_self hlt] at h
      exact .inl ⟨rfl, (Option.some.inj h).symm⟩
    · rw [get_of_size_le (by simpa using Nat.le_of_not_lt hlt)] at h
      cases h
  · rw [get_setEntity_ne hj] at h
    exact .inr ⟨hj, h⟩

end Arena

/-- What reading a text adds: symbols behind all others, in order, of which nothing is known but the
producer. -/
theorem Sentence.append_spec (s : Sentence) (a : Arena) (tokens : List Token)
    (parent : Option SymbolId) :
    (s.append a tokens parent).2.size = a.size + tokens.length ∧
      (s.append a tokens parent).1.symbols.toList =
        s.symbols.toList ++ List.range' a.size tokens.length ∧
      (∀ id < a.size, (s.append a tokens parent).2.get id = a.get id) ∧
      ∀ id, a.size ≤ id → id < (s.append a tokens parent).2.size →
        ((s.append a tokens parent).2.get id).parent = parent ∧
          ((s.append a tokens parent).2.get id).entity = none := by
  induction tokens generalizing s a with
  | nil =>
    refine ⟨rfl, by simp [append], fun _ _ => rfl, ?_⟩
    intro id hle hlt
    exact absurd hlt (Nat.not_lt.mpr hle)
  | cons token tokens ih =>
    let s' : Sentence := ⟨s.symbols.push a.size, s.text ++ token.raw⟩
    obtain ⟨hsize, hsymbols, hold, hnew⟩ := ih s' (a.insert token parent)
    have happend : s.append a (token :: tokens) parent =
        s'.append (a.insert token parent) tokens parent := rfl
    rw [Arena.size_insert] at hsize hsymbols hold hnew
    rw [happend]
    refine ⟨?_, ?_, ?_, ?_⟩
    · rw [hsize, List.length_cons]
      omega
    · rw [hsymbols, List.length_cons, List.range'_succ]
      simp [s']
    · intro id hid
      rw [hold id (by omega), Arena.get_insert, if_neg (Nat.ne_of_lt hid)]
    · intro id hle hlt
      rcases Nat.eq_or_lt_of_le hle with rfl | hlt'
      · rw [hold _ (by omega), Arena.get_insert, if_pos rfl]
        exact ⟨rfl, rfl⟩
      · exact hnew id hlt' hlt

/-- Reading a text makes no entity. -/
theorem Sentence.append_entity (s : Sentence) (a : Arena) (tokens : List Token)
    (parent : Option SymbolId) (j : SymbolId) :
    ((s.append a tokens parent).2.get j).entity = (a.get j).entity := by
  obtain ⟨-, -, hold, hnew⟩ := s.append_spec a tokens parent
  by_cases hj : j < a.size
  · rw [hold j hj]
  · rw [Arena.get_of_size_le (Nat.le_of_not_lt hj)]
    by_cases hb : j < (s.append a tokens parent).2.size
    · exact (hnew j (Nat.le_of_not_lt hj) hb).2
    · rw [Arena.get_of_size_le (Nat.le_of_not_lt hb)]

/-! ### One symbol more -/

variable [Scalar α] [Numeral α] [RandomSource ρ α]

/-- Expanding a symbol notes the alternative that was drawn for it and reads the text of that
alternative, if there is one. -/
theorem Run.expand_cases (r : Run α W) (id : SymbolId) (excluded : List Nat) (next : Sentence)
    (s : RunState W ρ) :
    ((r.expand id excluded next s).1 = next ∧
      (r.expand id excluded next s).2.arena = s.arena.setChosen id none) ∨
    (∃ i tokens, r.rules.Draws ρ (s.arena.get id).name excluded i ∧
      (r.expand id excluded next s).1 =
        (next.append (s.arena.setChosen id (some i)) tokens (some id)).1 ∧
      (r.expand id excluded next s).2.arena =
        (next.append (s.arena.setChosen id (some i)) tokens (some id)).2) := by
  unfold expand
  rcases hl : r.rules.lookup (s.arena.get id).name excluded s.source with ⟨- | drawn, source⟩
  · exact .inl ⟨rfl, rfl⟩
  · have hdraws : r.rules.Draws ρ (s.arena.get id).name excluded drawn.index :=
      ⟨s.source, drawn, by rw [hl], rfl⟩
    exact .inr ⟨drawn.index, (parse drawn.template source).1.tokens, hdraws, rfl, rfl⟩

/-- Expanding a symbol changes nothing of the symbols but choices. -/
theorem Run.expand_keeps {β : Type} {f : Symbol → β}
    (hf : ∀ (x : Symbol) (c : Option Nat), f { x with chosen := c } = f x) (r : Run α W)
    (id : SymbolId) (excluded : List Nat) (next : Sentence) (s : RunState W ρ) :
    s.arena.size ≤ (r.expand id excluded next s).2.arena.size ∧
      ∀ j < s.arena.size,
        f ((r.expand id excluded next s).2.arena.get j) = f (s.arena.get j) := by
  have hchosen (c : Option Nat) (j : SymbolId) :
      f ((s.arena.setChosen id c).get j) = f (s.arena.get j) := by
    obtain ⟨_, h⟩ := s.arena.get_setChosen id j c
    rw [h]
    exact hf _ _
  rcases r.expand_cases id excluded next s with ⟨-, ha⟩ | ⟨i, tokens, -, -, ha⟩
  · rw [ha, Arena.size_setChosen]
    exact ⟨Nat.le_refl _, fun j _ => hchosen none j⟩
  · obtain ⟨hsize, -, hold, -⟩ :=
      next.append_spec (s.arena.setChosen id (some i)) tokens (some id)
    rw [Arena.size_setChosen] at hsize hold
    rw [ha]
    refine ⟨by rw [hsize]; exact Nat.le_add_right _ _, ?_⟩
    intro j hj
    rw [hold j hj]
    exact hchosen (some i) j

/-- Nor does writing a sentence anew. -/
theorem Run.derive_keeps {β : Type} {f : Symbol → β}
    (hf : ∀ (x : Symbol) (c : Option Nat), f { x with chosen := c } = f x) (r : Run α W)
    (s : RunState W ρ) :
    s.arena.size ≤ (r.derive s).2.arena.size ∧
      ∀ j < s.arena.size, f ((r.derive s).2.arena.get j) = f (s.arena.get j) := by
  unfold derive
  split
  · obtain ⟨hsize, -, hold, -⟩ :=
      Sentence.append_spec .empty s.arena (parse r.start s.source).1.tokens none
    refine ⟨?_, fun j hj => congrArg f (hold j hj)⟩
    exact Nat.le_trans (Nat.le_add_right _ _) (Nat.le_of_eq hsize.symm)
  next previous _ =>
    -- only symbols that were there before are kept in sight, whatever is added
    let I (_ : List SymbolId) (_ : Sentence) (t : RunState W ρ) : Prop :=
      s.arena.size ≤ t.arena.size ∧ ∀ j < s.arena.size, f (t.arena.get j) = f (s.arena.get j)
    have hI : DeriveInvariant r s.exclusions I := by
      refine ⟨fun _ h => h, ?_⟩
      rintro id rest next t - ⟨hsize, hkept⟩
      obtain ⟨hgrow, hkeep⟩ := r.expand_keeps hf id (r.excludedFor s.exclusions id) next t
      exact ⟨Nat.le_trans hsize hgrow, fun j hj =>
        (hkeep j (Nat.lt_of_lt_of_le hj hsize)).trans (hkept j hj)⟩
    have hs : I previous.symbols.toList .empty s := ⟨Nat.le_refl _, fun _ _ => rfl⟩
    exact hI.deriveFrom hs

/-- Expanding a symbol changes no symbol as it was read. -/
theorem Run.expand_token (r : Run α W) (id : SymbolId) (excluded : List Nat) (next : Sentence)
    (s : RunState W ρ) :
    s.arena.size ≤ (r.expand id excluded next s).2.arena.size ∧
      ∀ j < s.arena.size, ((r.expand id excluded next s).2.arena.get j).toToken =
        (s.arena.get j).toToken :=
  r.expand_keeps (fun _ _ => rfl) id excluded next s

/-- Nor does writing a sentence anew. -/
theorem Run.derive_token (r : Run α W) (s : RunState W ρ) :
    s.arena.size ≤ (r.derive s).2.arena.size ∧
      ∀ j < s.arena.size, ((r.derive s).2.arena.get j).toToken = (s.arena.get j).toToken :=
  r.derive_keeps (fun _ _ => rfl) s

/-- Expanding a symbol makes no entity. -/
theorem Run.expand_entity (r : Run α W) (id : SymbolId) (excluded : List Nat) (next : Sentence)
    (s : RunState W ρ) (j : SymbolId) :
    ((r.expand id excluded next s).2.arena.get j).entity = (s.arena.get j).entity := by
  have hchosen (c : Option Nat) :
      ((s.arena.setChosen id c).get j).entity = (s.arena.get j).entity := by
    obtain ⟨_, h⟩ := s.arena.get_setChosen id j c
    rw [h]
  rcases r.expand_cases id excluded next s with ⟨-, ha⟩ | ⟨i, tokens, -, -, ha⟩
  · rw [ha]
    exact hchosen none
  · rw [ha, Sentence.append_entity]
    exact hchosen (some i)

/-- The entity of an object is given to no other symbol. -/
theorem Run.object_entity_ne [World W ρ] (r : Run α W) {id j : SymbolId} (h : j ≠ id)
    (next : Sentence) (s : RunState W ρ) :
    ((r.expand id [] next (s.spawn id)).2.arena.get j).entity = (s.arena.get j).entity := by
  rw [r.expand_entity]
  show ((s.arena.setEntity id _).get j).entity = (s.arena.get j).entity
  rw [Arena.get_setEntity_ne h]

/-- Nor does writing a sentence anew. -/
theorem Run.derive_entity (r : Run α W) (s : RunState W ρ) (j : SymbolId) :
    ((r.derive s).2.arena.get j).entity = (s.arena.get j).entity := by
  unfold derive
  split
  · exact Sentence.append_entity .empty s.arena (parse r.start s.source).1.tokens none j
  next previous _ =>
    let I (_ : List SymbolId) (_ : Sentence) (t : RunState W ρ) : Prop :=
      (t.arena.get j).entity = (s.arena.get j).entity
    have hI : DeriveInvariant r s.exclusions I :=
      ⟨fun _ h => h, fun _ h => (r.expand_entity ..).trans h⟩
    have hs : I previous.symbols.toList .empty s := rfl
    exact hI.deriveFrom hs

/-- What has been written of a sentence into the arena `b`, since the arena was `a`: `ids` are the
symbols to be read, `done` those of them that were expanded, each under its exclusions, and `next`
the sentence so far. -/
structure Writing (ρ : Type) [RandomSource ρ α] (t : RuleTable α) (a : Arena) (ids : List SymbolId)
    (excluded : SymbolId → List Nat) (done : List SymbolId) (next : Sentence) (b : Arena) :
    Prop where
  size_le : a.size ≤ b.size
  token : ∀ id < a.size, (b.get id).toToken = (a.get id).toToken
  parent : ∀ id < a.size, (b.get id).parent = (a.get id).parent
  chosen : ∀ id < a.size, id ∉ done → (b.get id).chosen = (a.get id).chosen
  entity : ∀ id < a.size, id ∉ ids → (b.get id).entity = (a.get id).entity
  read : ∀ id ∈ done, id ∈ ids ∧ id < a.size
  expands : ∀ id ∈ done, (a.get id).kind.expands = true
  drawn : ∀ id ∈ done, ∀ i, (b.get id).chosen = some i → t.Draws ρ (a.get id).name (excluded id) i
  fresh : ∀ c, a.size ≤ c → c < b.size → (b.get c).entity = none ∧
    ∃ p ∈ done, (b.get c).parent = some p ∧ (b.get p).chosen ≠ none
  next_mem : ∀ c ∈ next.symbols.toList, a.size ≤ c ∧ c < b.size
  next_sorted : next.symbols.toList.Pairwise (· < ·)

namespace Writing

variable {t : RuleTable α} {a b : Arena} {ids done : List SymbolId}
  {excluded : SymbolId → List Nat} {next : Sentence}

omit [Numeral α] in
/-- Nothing has been written yet. -/
theorem start (t : RuleTable α) (a : Arena) (ids : List SymbolId)
    (excluded : SymbolId → List Nat) : Writing ρ t a ids excluded [] .empty a where
  size_le := Nat.le_refl _
  token := fun _ _ => rfl
  parent := fun _ _ => rfl
  chosen := fun _ _ _ => rfl
  entity := fun _ _ _ => rfl
  read := by simp
  expands := by simp
  drawn := by simp
  fresh := fun _ hle hlt => absurd hlt (Nat.not_lt.mpr hle)
  next_mem := by simp [Sentence.empty]
  next_sorted := by simp [Sentence.empty]

omit [Numeral α] in
/-- A symbol that is read may be given an entity. -/
theorem setEntity (h : Writing ρ t a ids excluded done next b) {id : SymbolId} (hid : id ∈ ids)
    (hlt : id < a.size) (e : EntityId) :
    Writing ρ t a ids excluded done next (b.setEntity id e) := by
  have hget (j : SymbolId) : ∃ e', (b.setEntity id e).get j = { b.get j with entity := e' } :=
    b.get_setEntity id j e
  refine ⟨?_, ?_, ?_, ?_, ?_, h.read, h.expands, ?_, ?_, ?_, h.next_sorted⟩
  · -- size_le
    rw [Arena.size_setEntity]
    exact h.size_le
  · -- token
    intro j hj
    obtain ⟨_, hg⟩ := hget j
    rw [hg]
    exact h.token j hj
  · -- parent
    intro j hj
    obtain ⟨_, hg⟩ := hget j
    rw [hg]
    exact h.parent j hj
  · -- chosen
    intro j hj hd
    obtain ⟨_, hg⟩ := hget j
    rw [hg]
    exact h.chosen j hj hd
  · -- entity: it changes for a symbol that is read only
    intro j hj hn
    have hne : j ≠ id := fun he => hn (he ▸ hid)
    rw [Arena.get_setEntity_ne hne]
    exact h.entity j hj hn
  · -- drawn
    intro j hj i hi
    obtain ⟨_, hg⟩ := hget j
    rw [hg] at hi
    exact h.drawn j hj i hi
  · -- fresh: a new symbol is not the one that is read
    intro c hle hc
    rw [Arena.size_setEntity] at hc
    obtain ⟨hnone, p, hp, hparent, hchosen⟩ := h.fresh c hle hc
    have hne : c ≠ id := Nat.ne_of_gt (Nat.lt_of_lt_of_le hlt hle)
    obtain ⟨_, hgp⟩ := hget p
    rw [Arena.get_setEntity_ne hne]
    refine ⟨hnone, p, hp, hparent, ?_⟩
    rw [hgp]
    exact hchosen
  · -- next_mem
    intro c hc
    rw [Arena.size_setEntity]
    exact h.next_mem c hc

omit [Numeral α] in
/-- A symbol that is read may be expanded, and its choice noted. -/
theorem setChosen (h : Writing ρ t a ids excluded done next b) {id : SymbolId} (hid : id ∉ done)
    (hmem : id ∈ ids) (hlt : id < a.size) (hexpands : (a.get id).kind.expands = true)
    {chosen : Option Nat}
    (hdraws : ∀ i, chosen = some i → t.Draws ρ (a.get id).name (excluded id) i) :
    Writing ρ t a ids excluded (id :: done) next (b.setChosen id chosen) := by
  have hget (j : SymbolId) : ∃ c, (b.setChosen id chosen).get j = { b.get j with chosen := c } :=
    b.get_setChosen id j chosen
  refine ⟨?_, ?_, ?_, ?_, ?_, ?_, ?_, ?_, ?_, ?_, h.next_sorted⟩
  · -- size_le
    rw [Arena.size_setChosen]
    exact h.size_le
  · -- token
    intro j hj
    obtain ⟨_, hg⟩ := hget j
    rw [hg]
    exact h.token j hj
  · -- parent
    intro j hj
    obtain ⟨_, hg⟩ := hget j
    rw [hg]
    exact h.parent j hj
  · -- chosen: only the symbol that is now done has another one
    intro j hj hd
    obtain ⟨hne, hd⟩ := not_or.mp (mt List.mem_cons.mpr hd)
    rw [Arena.get_setChosen_ne hne]
    exact h.chosen j hj hd
  · -- entity
    intro j hj hn
    obtain ⟨_, hg⟩ := hget j
    rw [hg]
    exact h.entity j hj hn
  · -- read
    intro j hj
    rcases List.mem_cons.mp hj with rfl | hj
    · exact ⟨hmem, hlt⟩
    · exact h.read j hj
  · -- expands
    intro j hj
    rcases List.mem_cons.mp hj with rfl | hj
    · exact hexpands
    · exact h.expands j hj
  · -- drawn: by hypothesis for this symbol, and as before for the others
    intro j hj i hi
    rcases List.mem_cons.mp hj with rfl | hj
    · rw [Arena.get_setChosen_self (Nat.lt_of_lt_of_le hlt h.size_le)] at hi
      exact hdraws i hi
    · have hne : j ≠ id := fun he => hid (he ▸ hj)
      rw [Arena.get_setChosen_ne hne] at hi
      exact h.drawn j hj i hi
  · -- fresh: the producer of a new symbol was done before, so its choice is kept
    intro c hle hc
    rw [Arena.size_setChosen] at hc
    obtain ⟨hnone, p, hp, hparent, hchosen⟩ := h.fresh c hle hc
    have hne : c ≠ id := Nat.ne_of_gt (Nat.lt_of_lt_of_le hlt hle)
    have hpne : p ≠ id := fun he => hid (he ▸ hp)
    rw [Arena.get_setChosen_ne hne]
    refine ⟨hnone, p, List.mem_cons_of_mem _ hp, hparent, ?_⟩
    rw [Arena.get_setChosen_ne hpne]
    exact hchosen
  · -- next_mem
    intro c hc
    rw [Arena.size_setChosen]
    exact h.next_mem c hc

omit [Scalar α] [Numeral α] [RandomSource ρ α] in
/-- Handles that count on from behind all others are in order. -/
theorem sorted_append_range' {xs : List SymbolId} {n k : Nat} (hxs : xs.Pairwise (· < ·))
    (hlt : ∀ x ∈ xs, x < n) : (xs ++ List.range' n k).Pairwise (· < ·) := by
  refine List.pairwise_append.mpr ⟨hxs, List.pairwise_lt_range', ?_⟩
  intro x hx y hy
  exact Nat.lt_of_lt_of_le (hlt x hx) (List.mem_range'_1.mp hy).1

omit [Numeral α] in
/-- The symbols of the alternative that was drawn are put at the end. -/
theorem append (h : Writing ρ t a ids excluded done next b) {id : SymbolId} (hid : id ∈ done)
    (hchosen : (b.get id).chosen ≠ none) (tokens : List Token) :
    Writing ρ t a ids excluded done (next.append b tokens (some id)).1
      (next.append b tokens (some id)).2 := by
  obtain ⟨hsize, hsymbols, hold, hnew⟩ := next.append_spec b tokens (some id)
  have hgrow : b.size ≤ (next.append b tokens (some id)).2.size := by
    rw [hsize]
    exact Nat.le_add_right _ _
  -- the symbols that were there before, old or new, do not change
  have hkeep (j : SymbolId) (hj : j < a.size) :
      (next.append b tokens (some id)).2.get j = b.get j :=
    hold j (Nat.lt_of_lt_of_le hj h.size_le)
  refine ⟨?_, ?_, ?_, ?_, ?_, h.read, h.expands, ?_, ?_, ?_, ?_⟩
  · -- size_le
    exact Nat.le_trans h.size_le hgrow
  · -- token
    intro j hj
    rw [hkeep j hj]
    exact h.token j hj
  · -- parent
    intro j hj
    rw [hkeep j hj]
    exact h.parent j hj
  · -- chosen
    intro j hj hd
    rw [hkeep j hj]
    exact h.chosen j hj hd
  · -- entity
    intro j hj hn
    rw [hkeep j hj]
    exact h.entity j hj hn
  · -- drawn
    intro j hj i hi
    rw [hkeep j (h.read j hj).2] at hi
    exact h.drawn j hj i hi
  · -- fresh: of what is added the producer is `id`
    intro c hle hc
    by_cases hcb : c < b.size
    · obtain ⟨hnone, p, hp, hparent, hpc⟩ := h.fresh c hle hcb
      rw [hold c hcb]
      refine ⟨hnone, p, hp, hparent, ?_⟩
      rw [hkeep p (h.read p hp).2]
      exact hpc
    · obtain ⟨hparent, hnone⟩ := hnew c (Nat.le_of_not_lt hcb) hc
      refine ⟨hnone, id, hid, hparent, ?_⟩
      rw [hkeep id (h.read id hid).2]
      exact hchosen
  · -- next_mem
    intro c hc
    rw [hsymbols] at hc
    rcases List.mem_append.mp hc with hc | hc
    · obtain ⟨hle, hlt⟩ := h.next_mem c hc
      exact ⟨hle, Nat.lt_of_lt_of_le hlt hgrow⟩
    · obtain ⟨hle, hlt⟩ := List.mem_range'_1.mp hc
      rw [hsize]
      exact ⟨Nat.le_trans h.size_le hle, hlt⟩
  · -- next_sorted
    rw [hsymbols]
    exact sorted_append_range' h.next_sorted fun c hc => (h.next_mem c hc).2

/-- **A symbol is expanded.**  It must be one that was not expanded before. -/
theorem expand {r : Run α W} {s : RunState W ρ} {id : SymbolId}
    (h : Writing ρ r.rules a ids excluded done next s.arena) (hid : id ∉ done) (hmem : id ∈ ids)
    (hlt : id < a.size) (hexpands : (a.get id).kind.expands = true) :
    Writing ρ r.rules a ids excluded (id :: done) (r.expand id (excluded id) next s).1
      (r.expand id (excluded id) next s).2.arena := by
  rcases r.expand_cases id (excluded id) next s with ⟨hn, ha⟩ | ⟨i, tokens, hd, hn, ha⟩
  · rw [hn, ha]
    exact h.setChosen hid hmem hlt hexpands (by simp)
  · have hname : (s.arena.get id).name = (a.get id).name := congrArg Token.name (h.token id hlt)
    rw [hname] at hd
    have hw : Writing ρ r.rules a ids excluded (id :: done) next
        (s.arena.setChosen id (some i)) := by
      refine h.setChosen hid hmem hlt hexpands ?_
      rintro _ ⟨⟩
      exact hd
    have hchosen : ((s.arena.setChosen id (some i)).get id).chosen ≠ none := by
      rw [Arena.get_setChosen_self (Nat.lt_of_lt_of_le hlt h.size_le)]
      exact Option.some_ne_none i
    rw [hn, ha]
    exact hw.append List.mem_cons_self hchosen tokens

omit [Numeral α] in
/-- An old symbol keeps its kind. -/
theorem kind_eq (h : Writing ρ t a ids excluded done next b) {id : SymbolId} (hlt : id < a.size) :
    (b.get id).kind = (a.get id).kind :=
  congrArg Token.kind (h.token id hlt)

/-! ### With symbols left to be read -/

/-- What has been written when `rest` is still to be read: of that nothing has been expanded, and of
the symbols before it all that can be. -/
def Before (ρ : Type) [RandomSource ρ α] (t : RuleTable α) (a : Arena) (ids : List SymbolId)
    (excluded : SymbolId → List Nat) (rest : List SymbolId) (next : Sentence) (b : Arena) : Prop :=
  rest <:+ ids ∧ ∃ done, (∀ id ∈ done, id ∉ rest) ∧
    (∀ id ∈ ids, (a.get id).kind.expands = true → id ∈ done ∨ id ∈ rest) ∧
    Writing ρ t a ids excluded done next b

namespace Before

variable {rest : List SymbolId} {id : SymbolId}

omit [Numeral α] in
theorem start (t : RuleTable α) (a : Arena) (ids : List SymbolId)
    (excluded : SymbolId → List Nat) : Before ρ t a ids excluded ids .empty a :=
  ⟨List.suffix_rfl, [], by simp, fun _ h _ => .inr h, .start ..⟩

omit [Numeral α] in
theorem mem (h : Before ρ t a ids excluded (id :: rest) next b) : id ∈ ids :=
  h.1.mem List.mem_cons_self

omit [Numeral α] in
theorem skip (hlt : ∀ j ∈ ids, j < a.size) (h : Before ρ t a ids excluded (id :: rest) next b)
    (hk : (b.get id).kind.expands = false) : Before ρ t a ids excluded rest next b := by
  have hmem := h.mem
  obtain ⟨hsuffix, done, hdone, hall, hw⟩ := h
  refine ⟨(List.suffix_cons id rest).trans hsuffix, done, ?_, ?_, hw⟩
  · exact fun j hj hr => hdone j hj (List.mem_cons_of_mem _ hr)
  · intro j hj he
    rcases hall j hj he with hd | hr
    · exact .inl hd
    · rcases List.mem_cons.mp hr with rfl | hr
      · rw [hw.kind_eq (hlt j hmem), he] at hk
        cases hk
      · exact .inr hr

omit [Numeral α] in
theorem setEntity (h : Before ρ t a ids excluded (id :: rest) next b) (hlt : ∀ j ∈ ids, j < a.size)
    (e : EntityId) : Before ρ t a ids excluded (id :: rest) next (b.setEntity id e) := by
  have hmem := h.mem
  obtain ⟨hsuffix, done, hdone, hall, hw⟩ := h
  exact ⟨hsuffix, done, hdone, hall, hw.setEntity hmem (hlt id hmem) e⟩

/-- In a sentence without repetition the next symbol is one that was not expanded before. -/
theorem expand {r : Run α W} {s : RunState W ρ} (hnodup : ids.Nodup) (hlt : ∀ j ∈ ids, j < a.size)
    (h : Before ρ r.rules a ids excluded (id :: rest) next s.arena)
    (hk : (s.arena.get id).kind.expands = true) :
    Before ρ r.rules a ids excluded rest (r.expand id (excluded id) next s).1
      (r.expand id (excluded id) next s).2.arena := by
  have hmem := h.mem
  obtain ⟨hsuffix, done, hdone, hall, hw⟩ := h
  have hnot : id ∉ rest := (List.nodup_cons.mp (hnodup.sublist hsuffix.sublist)).1
  have hexpands : (a.get id).kind.expands = true := by rwa [← hw.kind_eq (hlt id hmem)]
  refine ⟨(List.suffix_cons id rest).trans hsuffix, id :: done, ?_, ?_, ?_⟩
  · intro j hj
    rcases List.mem_cons.mp hj with rfl | hj
    · exact hnot
    · exact fun hr => hdone j hj (List.mem_cons_of_mem _ hr)
  · intro j hj he
    rcases hall j hj he with hd | hr
    · exact .inl (List.mem_cons_of_mem _ hd)
    · rcases List.mem_cons.mp hr with rfl | hr
      · exact .inl List.mem_cons_self
      · exact .inr hr
  · exact hw.expand (fun hd => hdone id hd List.mem_cons_self) hmem (hlt id hmem) hexpands

end Before

end Writing

/-! ### A pass writes the next sentence -/

variable [World W ρ]

omit [Scalar α] [Numeral α] [RandomSource ρ α] in
/-- Making an entity changes no symbol as it was read. -/
theorem RunState.spawn_token (id : SymbolId) (s : RunState W ρ) :
    (s.spawn id).arena.size = s.arena.size ∧
      ∀ j, ((s.spawn id).arena.get j).toToken = (s.arena.get j).toToken := by
  obtain ⟨e, he⟩ : ∃ e, (s.spawn id).arena = s.arena.setEntity id e := ⟨_, rfl⟩
  rw [he]
  refine ⟨Arena.size_setEntity .., fun j => ?_⟩
  obtain ⟨_, hg⟩ := s.arena.get_setEntity id j e
  rw [hg]

/-- Nor does a pass. -/
theorem Run.pass_token (r : Run α W) (s : RunState W ρ) :
    s.arena.size ≤ (r.pass s).state.arena.size ∧
      ∀ j < s.arena.size, ((r.pass s).state.arena.get j).toToken = (s.arena.get j).toToken := by
  let J (t : RunState W ρ) : Prop :=
    s.arena.size ≤ t.arena.size ∧
      ∀ j < s.arena.size, (t.arena.get j).toToken = (s.arena.get j).toToken
  have hexpand (id : SymbolId) (next : Sentence) (t : RunState W ρ) (ht : J t) :
      J (r.expand id [] next t).2 := by
    obtain ⟨hsize, htoken⟩ := r.expand_token id [] next t
    exact ⟨ht.1.trans hsize, fun j hj => (htoken j (Nat.lt_of_lt_of_le hj ht.1)).trans (ht.2 j hj)⟩
  have hcheck (waiting : Option SymbolId) (t : RunState W ρ) (ht : J t) :
      J (r.check waiting t).2 := by
    unfold J
    rwa [r.check_arena]
  have hJ : PassInvariant r fun _ _ _ t => J t := by
    refine ⟨?_, fun _ h => h, fun _ h => hcheck _ _ h, fun _ h => hexpand _ _ _ h, ?_⟩
    · intro id rest next waiting t _ ht
      rcases t.dispatch_cases id waiting with ⟨_, h⟩ | ⟨_, _, _, _, _, _, -, -, -, -, h⟩ <;>
        rw [h] <;> exact ht
    · intro id rest next t _ ht
      obtain ⟨hsize, htoken⟩ := t.spawn_token id
      exact hexpand _ _ _ ⟨ht.1.trans hsize.ge, fun j hj => (htoken j).trans (ht.2 j hj)⟩
  exact hJ.state hcheck ⟨Nat.le_refl _, fun _ _ => rfl⟩

/-- `J ids next a` is kept by whatever is written of a sentence, be it by a pass or anew: `ids` are
the symbols still to be read, `next` is the sentence so far, and of the arena `a` only the symbols
as they were read count. -/
structure WriteInvariant (ρ : Type) [RandomSource ρ α] (r : Run α W)
    (J : List SymbolId → Sentence → Arena → Prop) : Prop where
  skip : ∀ {id rest next a}, (a.get id).kind.expands = false → J (id :: rest) next a → J rest next a
  congr : ∀ {ids next a b}, a.size ≤ b.size →
    (∀ j < a.size, (b.get j).toToken = (a.get j).toToken) → J ids next a → J ids next b
  expand : ∀ {id rest next excluded} {s : RunState W ρ}, (s.arena.get id).kind.expands = true →
    J (id :: rest) next s.arena →
    J rest (r.expand id excluded next s).1 (r.expand id excluded next s).2.arena

namespace WriteInvariant

variable {r : Run α W} {J : List SymbolId → Sentence → Arena → Prop} {s s' : RunState W ρ}

/-- It is kept by a pass. -/
theorem passInvariant (hJ : WriteInvariant ρ r J) :
    PassInvariant r fun ids next _ (s : RunState W ρ) => J ids next s.arena := by
  refine ⟨?_, ?_, ?_, ?_, ?_⟩
  · -- method
    intro id rest next waiting s hk h
    have hskip := hJ.skip (by rw [hk]; rfl) h
    rcases s.dispatch_cases id waiting with ⟨_, hd⟩ | ⟨_, _, _, _, _, _, -, -, -, -, hd⟩ <;>
      rw [hd] <;> exact hskip
  · -- invalid
    exact fun hk h => hJ.skip (by rw [hk]; rfl) h
  · -- check
    intro ids next waiting s _ h
    rw [r.check_arena]
    exact h
  · -- rule
    exact fun hk h => hJ.expand (by rw [hk]; rfl) h
  · -- object: it is given an entity, which is not written down
    intro id rest next s hk h
    obtain ⟨hsize, htoken⟩ := s.spawn_token id
    have hkind : ((s.spawn id).arena.get id).kind = .object :=
      (congrArg Token.kind (htoken id)).trans hk
    exact hJ.expand (by rw [hkind]; rfl) (hJ.congr hsize.ge (fun j _ => htoken j) h)

/-- **A completed pass has written all of the next sentence.** -/
theorem completed (hJ : WriteInvariant ρ r J) {next : Sentence} (hp : r.pass s = .completed next s')
    (h : J s.current.symbols.toList .empty s.arena) : J [] next s'.arena := by
  have hk := hJ.passInvariant.pass h
  rwa [hp] at hk

omit [World W ρ] in
/-- **A sentence that is written anew is written in full.** -/
theorem derive (hJ : WriteInvariant ρ r J) {previous : Sentence}
    (hprevious : s.previous = some previous) (h : J previous.symbols.toList .empty s.arena) :
    J [] (r.derive s).1 (r.derive s).2.arena := by
  have hI : DeriveInvariant r s.exclusions fun ids next (t : RunState W ρ) => J ids next t.arena :=
    ⟨fun hk h => hJ.skip hk h, fun hk h => hJ.expand hk h⟩
  have hd : r.derive s = r.deriveFrom s.exclusions previous.symbols.toList .empty s := by
    unfold Run.derive
    rw [hprevious]
  rw [hd]
  exact hI.deriveFrom h

end WriteInvariant

/-- What a pass that began in `s₀` has written when `ids` are still to be read. -/
structure PassWriting (r : Run α W) (s₀ : RunState W ρ) (ids : List SymbolId) (next : Sentence)
    (waiting : Option SymbolId) (s : RunState W ρ) : Prop where
  waiting_mem : ∀ id, waiting = some id → id ∈ s₀.current.symbols.toList
  writing : Writing.Before ρ r.rules s₀.arena s₀.current.symbols.toList (fun _ => []) ids next
    s.arena

theorem PassWriting.passInvariant (r : Run α W) {s₀ : RunState W ρ}
    (hnodup : s₀.current.symbols.toList.Nodup)
    (hlt : ∀ id ∈ s₀.current.symbols.toList, id < s₀.arena.size) :
    PassInvariant r (PassWriting r s₀) := by
  refine ⟨?_, ?_, ?_, ?_, ?_⟩
  · -- method: it writes nothing
    rintro id rest next waiting s hk ⟨hwaiting, hw⟩
    refine ⟨hwaiting, ?_⟩
    rcases s.dispatch_cases id waiting with ⟨_, h⟩ | ⟨_, _, _, _, _, _, -, -, -, -, h⟩ <;>
      rw [h] <;> exact hw.skip hlt (by rw [hk]; rfl)
  · -- invalid
    rintro id rest next waiting s hk ⟨hwaiting, hw⟩
    exact ⟨hwaiting, hw.skip hlt (by rw [hk]; rfl)⟩
  · -- check
    rintro ids next waiting s - ⟨-, hw⟩
    refine ⟨by simp, ?_⟩
    rw [r.check_arena]
    exact hw
  · -- rule
    rintro id rest next s hk ⟨-, hw⟩
    exact ⟨by simp, hw.expand hnodup hlt (by rw [hk]; rfl)⟩
  · -- object: it is given an entity first
    rintro id rest next s hk ⟨-, hw⟩
    have hspawn : Writing.Before ρ r.rules s₀.arena s₀.current.symbols.toList (fun _ => [])
        (id :: rest) next (s.spawn id).arena := hw.setEntity hlt _
    have hkind : ((s.spawn id).arena.get id).kind = .object :=
      (congrArg Token.kind ((s.spawn_token id).2 id)).trans hk
    refine ⟨?_, hspawn.expand hnodup hlt (by rw [hkind]; rfl)⟩
    rintro _ ⟨⟩
    exact hw.mem

omit [Numeral α] [World W ρ] in
theorem PassWriting.start (r : Run α W) (s : RunState W ρ) :
    PassWriting r s s.current.symbols.toList .empty none { s with spawnedThisPass := #[] } :=
  ⟨by simp, .start ..⟩

/-- **A completed pass has written the next sentence.** -/
theorem Run.completed_writing {r : Run α W} {s s' : RunState W ρ} {next : Sentence}
    (hnodup : s.current.symbols.toList.Nodup)
    (hlt : ∀ id ∈ s.current.symbols.toList, id < s.arena.size)
    (h : r.pass s = .completed next s') :
    ∃ done, Writing ρ r.rules s.arena s.current.symbols.toList (fun _ => []) done next s'.arena ∧
      ∀ id ∈ s.current.symbols.toList, (s.arena.get id).kind.expands = true → id ∈ done := by
  have hk := (PassWriting.passInvariant r hnodup hlt).pass (PassWriting.start r s)
  rw [h] at hk
  obtain ⟨-, -, done, -, hall, hw⟩ := hk
  exact ⟨done, hw, fun id hid he => (hall id hid he).resolve_right List.not_mem_nil⟩

/-- A pass that fails has written some of it, and fails by a symbol that it read. -/
theorem Run.violated_writing {r : Run α W} {s s' : RunState W ρ} {symbol : SymbolId}
    (hnodup : s.current.symbols.toList.Nodup)
    (hlt : ∀ id ∈ s.current.symbols.toList, id < s.arena.size)
    (h : r.pass s = .violated symbol s') :
    symbol ∈ s.current.symbols.toList ∧ ∃ done next,
      Writing ρ r.rules s.arena s.current.symbols.toList (fun _ => []) done next s'.arena := by
  have hk := (PassWriting.passInvariant r hnodup hlt).pass (PassWriting.start r s)
  rw [h] at hk
  -- it fails by its last test, which changes no symbol
  obtain ⟨_, next, waiting, t, ⟨hwaiting, -, done, -, -, hw⟩, hc⟩ := hk
  have ha : s'.arena = t.arena := by simpa [hc] using r.check_arena waiting t
  refine ⟨?_, done, next, by rwa [ha]⟩
  rcases r.check_cases waiting t with ⟨-, hd⟩ | ⟨_, _, -, -, -, hd⟩ | ⟨_, _, hid, -, -, hd⟩ <;>
    rw [hd] at hc <;> cases hc
  exact hwaiting _ hid

omit [World W ρ] in
/-- **A derivation writes the current sentence anew**, from the sentence before it. -/
theorem Run.derive_writing {r : Run α W} {s : RunState W ρ} {previous : Sentence}
    (hprevious : s.previous = some previous) (hnodup : previous.symbols.toList.Nodup)
    (hlt : ∀ id ∈ previous.symbols.toList, id < s.arena.size) :
    ∃ done, Writing ρ r.rules s.arena previous.symbols.toList (r.excludedFor s.exclusions) done
      (r.derive s).1 (r.derive s).2.arena ∧
      ∀ id ∈ previous.symbols.toList, (s.arena.get id).kind.expands = true → id ∈ done := by
  let I (ids : List SymbolId) (next : Sentence) (t : RunState W ρ) : Prop :=
    Writing.Before ρ r.rules s.arena previous.symbols.toList (r.excludedFor s.exclusions) ids next
      t.arena
  have hI : DeriveInvariant r s.exclusions I :=
    ⟨fun hk h => Writing.Before.skip hlt h hk, fun he h => Writing.Before.expand hnodup hlt h he⟩
  have hs : I previous.symbols.toList .empty s := .start ..
  obtain ⟨-, done, -, hall, hw⟩ := hI.deriveFrom hs
  have hd : r.derive s = r.deriveFrom s.exclusions previous.symbols.toList .empty s := by
    unfold derive
    rw [hprevious]
  rw [hd]
  exact ⟨done, hw, fun id hid he => (hall id hid he).resolve_right List.not_mem_nil⟩

end SpatialGrammar
