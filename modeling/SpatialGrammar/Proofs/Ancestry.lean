/-
SpatialGrammar/Proofs/Ancestry.lean

The producers above a symbol, and the entities of the symbols of a pass.

Where every producer is older than what it produced, the walk to the producers above a
symbol does not depend on how far it may go (`Arena.ancestorsWithin_eq`), so it can be
taken one producer at a time.  A pass makes entities for the objects that it reads, one
each, and for nothing else (`Making`).  So what the world is told of a method is known
before the pass begins (`PassWriting.callOf_eq`).
-/
import SpatialGrammar.Proofs.Lifecycle
import SpatialGrammar.Proofs.Lineage

namespace SpatialGrammar

variable {α W ρ : Type}

/-! ### The walk to the producers -/

namespace Arena

variable {a b : Arena} {id p q : SymbolId}

/-- The walk is over before its fuel is. -/
theorem ancestorsWithin_eq (ha : a.Older) {fuel : Nat} (h : id ≤ fuel) :
    a.ancestorsWithin fuel id = a.ancestors id := by
  -- on the handle: the next producer is older, so the fuel that is left covers it on both sides
  induction id using Nat.strongRecOn generalizing fuel with
  | ind id ih =>
    unfold ancestors
    rcases hp : (a.get id).parent with - | p
    · cases fuel <;> cases id <;> simp [ancestorsWithin, hp]
    · have hlt : p < id := ha hp
      obtain ⟨n, rfl⟩ := Nat.exists_eq_succ_of_ne_zero (Nat.ne_zero_of_lt hlt)
      obtain ⟨m, rfl⟩ := Nat.exists_eq_succ_of_ne_zero
        (Nat.ne_zero_of_lt (Nat.lt_of_lt_of_le hlt h))
      simp only [ancestorsWithin, hp]
      rw [ih p hlt (Nat.le_of_lt_succ (Nat.lt_of_lt_of_le hlt h)),
        ih p hlt (Nat.le_of_lt_succ hlt)]

/-- A symbol of the starting text has no producer above it. -/
theorem ancestors_of_none (h : (a.get id).parent = none) : a.ancestors id = [] := by
  unfold ancestors
  cases id <;> simp [ancestorsWithin, h]

/-- Above any other are its producer and those above that one. -/
theorem ancestors_of_some (ha : a.Older) (h : (a.get id).parent = some p) :
    a.ancestors id = p :: a.ancestors p := by
  obtain ⟨n, rfl⟩ := Nat.exists_eq_succ_of_ne_zero (Nat.ne_zero_of_lt (ha h))
  have hwithin : a.ancestorsWithin n p = a.ancestors p :=
    ancestorsWithin_eq ha (Nat.le_of_lt_succ (ha h))
  rw [← hwithin]
  show a.ancestorsWithin (n + 1) (n + 1) = _
  simp only [ancestorsWithin, h]

/-- There are no more of them than the handle counts. -/
theorem length_ancestors_le (a : Arena) (id : SymbolId) : (a.ancestors id).length ≤ id := by
  have hwithin (fuel : Nat) : ∀ id, (a.ancestorsWithin fuel id).length ≤ fuel := by
    induction fuel with
    | zero => exact fun _ => Nat.le_refl 0
    | succ fuel ih =>
      intro id
      unfold ancestorsWithin
      split
      · exact Nat.zero_le _
      · exact Nat.succ_le_succ (ih _)
  exact hwithin id id

/-- All of them are older than the symbol. -/
theorem lt_of_mem_ancestors (ha : a.Older) (h : q ∈ a.ancestors id) : q < id := by
  induction id using Nat.strongRecOn with
  | ind id ih =>
    rcases hp : (a.get id).parent with - | p
    · rw [ancestors_of_none hp] at h
      simp at h
    · rw [ancestors_of_some ha hp] at h
      rcases List.mem_cons.mp h with rfl | h
      · exact ha hp
      · exact Nat.lt_trans (ih p (ha hp) h) (ha hp)

/-- They are the same where the symbols up to this one have the same producers. -/
theorem ancestors_congr (ha : a.Older) (hb : b.Older)
    (h : ∀ q ≤ id, (b.get q).parent = (a.get q).parent) : b.ancestors id = a.ancestors id := by
  induction id using Nat.strongRecOn with
  | ind id ih =>
    have hid := h id (Nat.le_refl id)
    rcases hp : (a.get id).parent with - | p
    · rw [hp] at hid
      rw [ancestors_of_none hp, ancestors_of_none hid]
    · rw [hp] at hid
      have hlt : p < id := ha hp
      have hrest := ih p hlt fun q hq => h q (Nat.le_trans hq (Nat.le_of_lt hlt))
      rw [ancestors_of_some ha hp, ancestors_of_some hb hid, hrest]

/-- Only objects have entities. -/
def Objects (a : Arena) : Prop :=
  ∀ ⦃id e⦄, (a.get id).entity = some e → (a.get id).kind = .object

end Arena

variable [Scalar α] [Numeral α] [RandomSource ρ α]

namespace Layered

variable {r : Run α W} {lo : Nat} {s : RunState W ρ} {c p q : SymbolId}

omit [Numeral α] in
/-- The producer of a symbol of the current sentence is older than the sentence. -/
theorem parent_lt (h : Layered r lo s) (hc : c ∈ s.current.symbols.toList)
    (hp : (s.arena.get c).parent = some p) : p < lo := by
  rcases h.produced with ⟨-, -, hnone⟩ | ⟨previous, -, hprod⟩
  · rw [hnone c hc] at hp
    cases hp
  · obtain ⟨q, hq, hcq, -, -⟩ := hprod.parent c hc
    rw [hp] at hcq
    cases hcq
    exact hprod.lt p hq

omit [Numeral α] in
/-- So are all producers above one. -/
theorem ancestor_lt (h : Layered r lo s) (hc : c ∈ s.current.symbols.toList)
    (hq : q ∈ s.arena.ancestors c) : q < lo := by
  rcases hp : (s.arena.get c).parent with - | p
  · rw [Arena.ancestors_of_none hp] at hq
    simp at hq
  · rw [Arena.ancestors_of_some h.older hp] at hq
    rcases List.mem_cons.mp hq with rfl | hq
    · exact h.parent_lt hc hp
    · exact Nat.lt_trans (Arena.lt_of_mem_ancestors h.older hq) (h.parent_lt hc hp)

end Layered

/-! ### What a pass leaves alone -/

namespace PassWriting

variable {r : Run α W} {lo : Nat} {s₀ s : RunState W ρ} {ids : List SymbolId} {next : Sentence}
  {waiting : Option SymbolId} {c q : SymbolId}

omit [Numeral α] in
theorem size_le (h : PassWriting r s₀ ids next waiting s) : s₀.arena.size ≤ s.arena.size := by
  obtain ⟨-, _, -, -, hw⟩ := h.writing
  exact hw.size_le

omit [Numeral α] in
theorem token_eq (h : PassWriting r s₀ ids next waiting s) (hq : q < s₀.arena.size) :
    (s.arena.get q).toToken = (s₀.arena.get q).toToken := by
  obtain ⟨-, _, -, -, hw⟩ := h.writing
  exact hw.token q hq

omit [Numeral α] in
theorem kind_eq (h : PassWriting r s₀ ids next waiting s) (hq : q < s₀.arena.size) :
    (s.arena.get q).kind = (s₀.arena.get q).kind :=
  congrArg Token.kind (h.token_eq hq)

omit [Numeral α] in
theorem parent_eq (h : PassWriting r s₀ ids next waiting s) (hq : q < s₀.arena.size) :
    (s.arena.get q).parent = (s₀.arena.get q).parent := by
  obtain ⟨-, _, -, -, hw⟩ := h.writing
  exact hw.parent q hq

omit [Numeral α] in
theorem older (h : PassWriting r s₀ ids next waiting s) (ha : s₀.arena.Older) : s.arena.Older := by
  obtain ⟨-, _, -, -, hw⟩ := h.writing
  exact hw.older ha

omit [Numeral α] in
/-- A symbol that is not read keeps its entity, or has none still. -/
theorem entity_eq (h : PassWriting r s₀ ids next waiting s)
    (hq : q ∉ s₀.current.symbols.toList) : (s.arena.get q).entity = (s₀.arena.get q).entity := by
  obtain ⟨-, _, -, -, hw⟩ := h.writing
  by_cases hlt : q < s₀.arena.size
  · exact hw.entity q hlt hq
  · rw [hw.unmade (Nat.le_of_not_lt hlt), Arena.get_of_size_le (Nat.le_of_not_lt hlt)]
    rfl

omit [Numeral α] in
/-- The symbols before the current sentence are not read. -/
theorem entity_eq_of_lt (h : PassWriting r s₀ ids next waiting s) (hl : Layered r lo s₀)
    (hq : q < lo) : (s.arena.get q).entity = (s₀.arena.get q).entity :=
  h.entity_eq fun hmem => Nat.not_lt.mpr (hl.mem q hmem).1 hq

omit [Numeral α] in
/-- The producers above a symbol stay the same. -/
theorem ancestors_eq (h : PassWriting r s₀ ids next waiting s) (hl : Layered r lo s₀)
    (hc : c ∈ s₀.current.symbols.toList) : s.arena.ancestors c = s₀.arena.ancestors c :=
  Arena.ancestors_congr hl.older (h.older hl.older) fun _ hq =>
    h.parent_eq (Nat.lt_of_le_of_lt hq (hl.lt_size c hc))

omit [Numeral α] in
/-- **What the world is told of a method is known before the pass begins.** -/
theorem callOf_eq (h : PassWriting r s₀ ids next waiting s) (hl : Layered r lo s₀)
    {method object : SymbolId} (hm : method ∈ s₀.current.symbols.toList)
    (ho : object ∈ s₀.current.symbols.toList) :
    s.callOf method object = s₀.callOf method object := by
  have htoken := h.token_eq (hl.lt_size method hm)
  have hlineage : s.arena.lineage object = s₀.arena.lineage object := by
    unfold Arena.lineage
    rw [h.ancestors_eq hl ho]
    exact List.map_congr_left fun q hq => h.entity_eq_of_lt hl (hl.ancestor_lt ho hq)
  have hproducer : ((s.arena.get method).parent.bind fun p => (s.arena.get p).entity) =
      (s₀.arena.get method).parent.bind fun p => (s₀.arena.get p).entity := by
    rw [h.parent_eq (hl.lt_size method hm)]
    rcases hp : (s₀.arena.get method).parent with - | p
    · rfl
    · exact h.entity_eq_of_lt hl (hl.parent_lt hm hp)
  unfold RunState.callOf
  rw [congrArg Token.name htoken, congrArg Token.args htoken, hlineage, hproducer]

end PassWriting

/-! ### The entities of a pass -/

/-- What a pass that began in `s₀` has made when `ids` are still to be read: an entity of the pass
for each object before them, and nothing for any other symbol. -/
structure Making (r : Run α W) (s₀ : RunState W ρ) (ids : List SymbolId) (next : Sentence)
    (waiting : Option SymbolId) (s : RunState W ρ) : Prop where
  writing : PassWriting r s₀ ids next waiting s
  unread : ∀ id ∈ ids, (s.arena.get id).entity = none
  read : ∀ id ∈ s₀.current.symbols.toList, id ∉ ids →
    ((s.arena.get id).entity.isSome ↔ (s₀.arena.get id).kind = .object) ∧
      ∀ e, (s.arena.get id).entity = some e → e ∈ s.spawnedThisPass.toList

namespace Making

variable {r : Run α W} {lo : Nat} {s₀ s t : RunState W ρ} {ids rest : List SymbolId}
  {next next' : Sentence} {waiting waiting' : Option SymbolId} {id : SymbolId}

omit [Numeral α] in
/-- A symbol that is no object is given no entity. -/
theorem skip (h : Making r s₀ (id :: rest) next waiting s) (hk : (s₀.arena.get id).kind ≠ .object)
    (hw : PassWriting r s₀ rest next' waiting' t)
    (hentity : ∀ j, (t.arena.get j).entity = (s.arena.get j).entity)
    (hspawned : t.spawnedThisPass = s.spawnedThisPass) : Making r s₀ rest next' waiting' t := by
  refine ⟨hw, ?_, ?_⟩
  · intro j hj
    rw [hentity]
    exact h.unread j (List.mem_cons_of_mem id hj)
  · intro j hmem hj
    rw [hentity, hspawned]
    by_cases he : j = id
    · rw [he, h.unread id List.mem_cons_self]
      exact ⟨by simp [hk], by simp⟩
    · exact h.read j hmem fun hcons => hj ((List.mem_cons.mp hcons).resolve_left he)

variable [World W ρ]

/-- **Each object that is read is given an entity of the pass**, and no other symbol is. -/
theorem passInvariant (hl : Layered r lo s₀) : PassInvariant r (Making r s₀) := by
  have hI := PassWriting.passInvariant r hl.nodup hl.lt_size
  have hkind {id rest next waiting s} (h : Making r s₀ (id :: rest) next waiting s) :
      (s.arena.get id).kind = (s₀.arena.get id).kind :=
    h.writing.kind_eq (hl.lt_size id h.writing.writing.mem)
  have hno {id rest next waiting s k} (h : Making r s₀ (id :: rest) next waiting s)
      (hk : (s.arena.get id).kind = k) (hne : k ≠ .object) : (s₀.arena.get id).kind ≠ .object := by
    rw [← hkind h, hk]
    exact hne
  refine ⟨?_, ?_, ?_, ?_, ?_⟩
  · -- method
    intro id rest next waiting s hk h
    have hw := hI.method hk h.writing
    have hno := hno h hk (by simp)
    rcases s.dispatch_cases id waiting with ⟨_, hd⟩ | ⟨_, _, _, _, _, _, -, -, -, -, hd⟩ <;>
      rw [hd] at hw ⊢ <;> exact h.skip hno hw (fun _ => rfl) rfl
  · -- invalid
    intro id rest next waiting s hk h
    exact h.skip (hno h hk (by simp)) (hI.invalid hk h.writing) (fun _ => rfl) rfl
  · -- check
    intro ids next waiting s hc h
    have hspawned : (r.check waiting s).2.spawnedThisPass = s.spawnedThisPass := by
      rcases r.check_cases waiting s with ⟨-, hd⟩ | ⟨_, _, -, -, -, hd⟩ | ⟨_, _, -, -, -, hd⟩ <;>
        rw [hd] <;> rfl
    refine ⟨hI.check hc h.writing, ?_, ?_⟩
    · rw [r.check_arena]
      exact h.unread
    · rw [r.check_arena, hspawned]
      exact h.read
  · -- rule
    intro id rest next s hk h
    obtain ⟨_, _, _, he⟩ := r.expand_frame id [] next s
    exact h.skip (hno h hk (by simp)) (hI.rule hk h.writing) (r.expand_entity id [] next s)
      (by rw [he])
  · -- object: of the symbols, only this one is given the entity that is made
    intro id rest next s hk h
    have hmem : id ∈ s₀.current.symbols.toList := h.writing.writing.mem
    have hlt : id < s.arena.size := Nat.lt_of_lt_of_le (hl.lt_size id hmem) h.writing.size_le
    have hnot : id ∉ rest :=
      (List.nodup_cons.mp (hl.nodup.sublist h.writing.writing.1.sublist)).1
    obtain ⟨e, harena, hspawn⟩ : ∃ e, (s.spawn id).arena = s.arena.setEntity id e ∧
        (s.spawn id).spawnedThisPass = s.spawnedThisPass.push e := ⟨_, rfl, rfl⟩
    have hself : ((r.expand id [] next (s.spawn id)).2.arena.get id).entity = some e := by
      rw [r.expand_entity, harena, Arena.get_setEntity_self hlt]
    have hother {j : SymbolId} (hj : j ≠ id) := r.object_entity_ne hj next s
    have hspawned : (r.expand id [] next (s.spawn id)).2.spawnedThisPass.toList =
        s.spawnedThisPass.toList ++ [e] := by
      obtain ⟨_, _, _, he⟩ := r.expand_frame id [] next (s.spawn id)
      rw [he]
      show (s.spawn id).spawnedThisPass.toList = _
      rw [hspawn, Array.toList_push]
    refine ⟨hI.object hk h.writing, ?_, ?_⟩
    · intro j hj
      rw [hother fun he => hnot (he ▸ hj)]
      exact h.unread j (List.mem_cons_of_mem id hj)
    · intro j hjmem hj
      rw [hspawned]
      by_cases he : j = id
      · subst he
        rw [hself]
        refine ⟨?_, ?_⟩
        · rw [← hkind h, hk]
          simp
        · rintro _ ⟨⟩
          exact List.mem_append_right _ (List.mem_singleton.mpr rfl)
      · rw [hother he]
        obtain ⟨hiff, hin⟩ :=
          h.read j hjmem fun hcons => hj ((List.mem_cons.mp hcons).resolve_left he)
        exact ⟨hiff, fun x hx => List.mem_append_left _ (hin x hx)⟩

omit [Numeral α] [World W ρ] in
/-- Nothing has been made yet. -/
theorem start (hl : Layered r lo s) :
    Making r s s.current.symbols.toList .empty none { s with spawnedThisPass := #[] } :=
  ⟨.start r s, fun id hid => hl.unmade (hl.mem id hid).1, fun _ hid hn => absurd hid hn⟩

omit [Numeral α] [World W ρ] in
/-- If only objects had entities before, then only objects have entities now. -/
theorem objects (h : Making r s₀ ids next waiting s) (hl : Layered r lo s₀)
    (ho : s₀.arena.Objects) : s.arena.Objects := by
  intro id e he
  by_cases hmem : id ∈ s₀.current.symbols.toList
  · by_cases hid : id ∈ ids
    · rw [h.unread id hid] at he
      cases he
    · rw [h.writing.kind_eq (hl.lt_size id hmem)]
      exact (h.read id hmem hid).1.mp (by rw [he]; rfl)
  · rw [h.writing.entity_eq hmem] at he
    have hlt : id < s₀.arena.size := by
      refine Nat.lt_of_not_le fun hle => ?_
      rw [Arena.get_of_size_le hle] at he
      cases he
    rw [h.writing.kind_eq hlt]
    exact ho he

end Making

end SpatialGrammar
