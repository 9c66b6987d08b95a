/-
SpatialGrammar/Proofs/Transcript.lean

The requests of a run read as a transcript.

A pass contributes what it asks for while it reads its symbols and, if it fails, one
`discard` for each entity it made (`PassTrace.calls`).  Two laws follow for passes in
which no entity is made twice: the entities left of them are those made and not gone
(`PassTrace.filter_spawned`), and these are the ones that wait when every request is
heard in order (`Awaiting.pending_hearAll_flatMap`).
-/
import Mathlib.Data.List.Nodup
import SpatialGrammar.Derivation.Awaiting
import SpatialGrammar.Derivation.World

namespace SpatialGrammar

/-! ### Reading a transcript -/

namespace Call

/-- The entity that was made by this request. -/
def spawned? : Call → Option EntityId
  | spawn e _ => some e
  | _ => none

/-- The entity that was taken back by this request. -/
def discarded? : Call → Option EntityId
  | discard e => some e
  | _ => none

/-- The entity that was told of the end by this request. -/
def settled? : Call → Option EntityId
  | settle e => some e
  | _ => none

/-- The entities made, in order. -/
def spawned (calls : List Call) : List EntityId := calls.filterMap spawned?

/-- The entities taken back, in order. -/
def discarded (calls : List Call) : List EntityId := calls.filterMap discarded?

/-- The entities told of the end, in order. -/
def settled (calls : List Call) : List EntityId := calls.filterMap settled?

/-- Whether this is a request that a pass makes while it reads its symbols. -/
def ofSymbol : Call → Bool
  | spawn .. | method .. | check .. => true
  | discard _ | settle _ => false

@[simp] theorem spawned_append (xs ys : List Call) :
    spawned (xs ++ ys) = spawned xs ++ spawned ys :=
  List.filterMap_append

@[simp] theorem discarded_append (xs ys : List Call) :
    discarded (xs ++ ys) = discarded xs ++ discarded ys :=
  List.filterMap_append

@[simp] theorem settled_append (xs ys : List Call) :
    settled (xs ++ ys) = settled xs ++ settled ys :=
  List.filterMap_append

@[simp] theorem spawned_map_discard (es : List EntityId) : spawned (es.map discard) = [] := by
  simp [spawned, List.filterMap_map, Function.comp_def, spawned?]

@[simp] theorem discarded_map_discard (es : List EntityId) : discarded (es.map discard) = es := by
  simp [discarded, List.filterMap_map, Function.comp_def, discarded?]

@[simp] theorem settled_map_discard (es : List EntityId) : settled (es.map discard) = [] := by
  simp [settled, List.filterMap_map, Function.comp_def, settled?]

@[simp] theorem spawned_map_settle (es : List EntityId) : spawned (es.map settle) = [] := by
  simp [spawned, List.filterMap_map, Function.comp_def, spawned?]

@[simp] theorem discarded_map_settle (es : List EntityId) : discarded (es.map settle) = [] := by
  simp [discarded, List.filterMap_map, Function.comp_def, discarded?]

@[simp] theorem settled_map_settle (es : List EntityId) : settled (es.map settle) = es := by
  simp [settled, List.filterMap_map, Function.comp_def, settled?]

/-- While it reads its symbols a pass takes nothing back. -/
theorem discarded_of_ofSymbol {calls : List Call} (h : ∀ c ∈ calls, c.ofSymbol) :
    discarded calls = [] := by
  refine List.filterMap_eq_nil_iff.mpr fun c hc => ?_
  have := h c hc
  cases c <;> simp_all [ofSymbol, discarded?]

/-- Nor does it tell anyone of the end. -/
theorem settled_of_ofSymbol {calls : List Call} (h : ∀ c ∈ calls, c.ofSymbol) :
    settled calls = [] := by
  refine List.filterMap_eq_nil_iff.mpr fun c hc => ?_
  have := h c hc
  cases c <;> simp_all [ofSymbol, settled?]

end Call

/-- What one pass asks of the world. -/
structure PassTrace where
  /-- The requests made while it read its symbols. -/
  requests : List Call
  /-- Whether it ended in a violation. -/
  failed : Bool

namespace PassTrace

/-- The entities that the pass made, in order. -/
def spawned (p : PassTrace) : List EntityId := Call.spawned p.requests

/-- All requests of the pass: one that fails takes back each of its entities before anything else is
asked for. -/
def calls (p : PassTrace) : List Call :=
  p.requests ++ if p.failed then p.spawned.map .discard else []

/-- The entities that are left of the pass. -/
def kept (p : PassTrace) : List EntityId := if p.failed then [] else p.spawned

/-- The entities that are gone after the pass. -/
def gone (p : PassTrace) : List EntityId := if p.failed then p.spawned else []

@[simp] theorem spawned_calls (p : PassTrace) : Call.spawned p.calls = p.spawned := by
  unfold calls spawned
  rw [Call.spawned_append]
  split
  · simp
  · exact List.append_nil _

theorem discarded_calls {p : PassTrace} (h : ∀ c ∈ p.requests, c.ofSymbol) :
    Call.discarded p.calls = p.gone := by
  unfold calls gone
  rw [Call.discarded_append, Call.discarded_of_ofSymbol h]
  split
  · simp
  · rfl

theorem settled_calls {p : PassTrace} (h : ∀ c ∈ p.requests, c.ofSymbol) :
    Call.settled p.calls = [] := by
  unfold calls
  rw [Call.settled_append, Call.settled_of_ofSymbol h]
  split
  · simp
  · rfl

theorem gone_subset (p : PassTrace) : p.gone ⊆ p.spawned := by
  unfold gone
  split
  · exact List.Subset.refl _
  · exact List.nil_subset _

/-! ### Transcripts of several passes -/

variable {ps : List PassTrace}

theorem spawned_flatMap_calls (ps : List PassTrace) :
    Call.spawned (ps.flatMap calls) = ps.flatMap spawned := by
  induction ps with
  | nil => rfl
  | cons p ps ih => simp only [List.flatMap_cons, Call.spawned_append, spawned_calls, ih]

theorem discarded_flatMap_calls (h : ∀ p ∈ ps, ∀ c ∈ p.requests, c.ofSymbol) :
    Call.discarded (ps.flatMap calls) = ps.flatMap gone := by
  induction ps with
  | nil => rfl
  | cons p ps ih =>
    rw [List.flatMap_cons, Call.discarded_append, discarded_calls (h p List.mem_cons_self),
      ih fun q hq => h q (List.mem_cons_of_mem _ hq), List.flatMap_cons]

theorem settled_flatMap_calls (h : ∀ p ∈ ps, ∀ c ∈ p.requests, c.ofSymbol) :
    Call.settled (ps.flatMap calls) = [] := by
  induction ps with
  | nil => rfl
  | cons p ps ih =>
    rw [List.flatMap_cons, Call.settled_append, settled_calls (h p List.mem_cons_self),
      ih fun q hq => h q (List.mem_cons_of_mem _ hq), List.append_nil]

/-- What is gone was made. -/
theorem flatMap_gone_sublist (ps : List PassTrace) :
    List.Sublist (ps.flatMap gone) (ps.flatMap spawned) := by
  induction ps with
  | nil => exact List.Sublist.refl _
  | cons p ps ih =>
    rw [List.flatMap_cons, List.flatMap_cons]
    refine List.Sublist.append ?_ ih
    unfold gone
    split
    · exact List.Sublist.refl _
    · exact List.nil_sublist _

/-- Where no entity is made twice, those that are left are those that are not gone. -/
theorem filter_spawned (fresh : (ps.flatMap spawned).Nodup) :
    (ps.flatMap spawned).filter (· ∉ ps.flatMap gone) = ps.flatMap kept := by
  induction ps with
  | nil => rfl
  | cons p ps ih =>
    simp only [List.flatMap_cons] at fresh ⊢
    obtain ⟨-, hps, hdisjoint⟩ := List.nodup_append.mp fresh
    rw [List.filter_append]
    have hfirst : p.spawned.filter (· ∉ p.gone ++ ps.flatMap gone) = p.kept := by
      have hlater : ∀ e ∈ p.spawned, e ∉ ps.flatMap gone := fun e he h =>
        hdisjoint e he e ((flatMap_gone_sublist ps).subset h) rfl
      rcases hf : p.failed with - | -
      · have hg : p.gone = [] := by simp [gone, hf]
        have hk : p.kept = p.spawned := by simp [kept, hf]
        rw [hg, hk, List.nil_append]
        exact List.filter_eq_self.mpr fun e he => by simpa using hlater e he
      · have hg : p.gone = p.spawned := by simp [gone, hf]
        have hk : p.kept = [] := by simp [kept, hf]
        rw [hg, hk]
        exact List.filter_eq_nil_iff.mpr fun e he => by simp [he]
    have hrest : (ps.flatMap spawned).filter (· ∉ p.gone ++ ps.flatMap gone) =
        (ps.flatMap spawned).filter (· ∉ ps.flatMap gone) := by
      refine List.filter_congr fun e he => ?_
      have hp : e ∉ p.gone := fun h => hdisjoint e (p.gone_subset h) e he rfl
      simp [hp]
    rw [hfirst, hrest, ih hps]

end PassTrace

/-! ### Who waits, according to a transcript -/

namespace Awaiting

/-- What one request changes about who waits. -/
def hear (a : Awaiting) : Call → Awaiting
  | .spawn e _ => a.subscribe e
  | .discard e => a.unsubscribe e
  | _ => a

/-- What a transcript changes about who waits. -/
def hearAll (a : Awaiting) (calls : List Call) : Awaiting := calls.foldl hear a

@[simp] theorem hearAll_nil (a : Awaiting) : a.hearAll [] = a := rfl

@[simp] theorem hearAll_append (a : Awaiting) (xs ys : List Call) :
    a.hearAll (xs ++ ys) = (a.hearAll xs).hearAll ys :=
  List.foldl_append

theorem hearAll_map_discard (es : List EntityId) (a : Awaiting) :
    a.hearAll (es.map .discard) = es.foldl unsubscribe a := by
  simp [hearAll, List.foldl_map, hear]

/-- Whoever waits and is not taken back goes on waiting, before all who come later. -/
theorem filter_pending_prefix_hearAll (calls : List Call) (a : Awaiting) :
    a.pending.filter (· ∉ Call.discarded calls) <+: (a.hearAll calls).pending := by
  induction calls generalizing a with
  | nil => simp [Call.discarded]
  | cons c calls ih =>
    cases c with
    | spawn e request =>
      refine List.IsPrefix.trans ?_ (ih (a.subscribe e))
      unfold subscribe
      split
      · exact List.prefix_rfl
      · rw [List.filter_append]
        exact List.prefix_append _ _
    | discard e =>
      have hfilter : a.pending.filter (· ∉ Call.discarded (.discard e :: calls)) =
          (a.unsubscribe e).pending.filter (· ∉ Call.discarded calls) := by
        simp only [unsubscribe, List.filter_filter]
        refine List.filter_congr fun x _ => ?_
        simp [Call.discarded, Call.discarded?, Bool.and_comm]
      rw [hfilter]
      exact ih (a.unsubscribe e)
    | method _ _ _ | check _ _ | settle _ => exact ih a

/-- Entities that are made for the first time wait after all others. -/
theorem pending_hearAll {calls : List Call} (hc : ∀ c ∈ calls, c.ofSymbol) {a : Awaiting}
    (fresh : (a.pending ++ Call.spawned calls).Nodup) :
    (a.hearAll calls).pending = a.pending ++ Call.spawned calls := by
  induction calls generalizing a with
  | nil => simp [Call.spawned]
  | cons c calls ih =>
    have hcs : ∀ c ∈ calls, c.ofSymbol := fun d hd => hc d (List.mem_cons_of_mem _ hd)
    have h₀ := hc c List.mem_cons_self
    cases c with
    | spawn e request =>
      have hs : Call.spawned (.spawn e request :: calls) = e :: Call.spawned calls := rfl
      rw [hs] at fresh ⊢
      have he : e ∉ a.pending := fun h =>
        (List.nodup_append.mp fresh).2.2 e h e List.mem_cons_self rfl
      have ha : (a.subscribe e).pending = a.pending ++ [e] := by simp [subscribe, he]
      show ((a.subscribe e).hearAll calls).pending = _
      rw [ih hcs (by simpa [ha] using fresh), ha]
      simp
    | method e call found => exact ih hcs fresh
    | check e bad => exact ih hcs fresh
    | discard e => simp [Call.ofSymbol] at h₀
    | settle e => simp [Call.ofSymbol] at h₀

/-- Taking entities back removes them from those that wait. -/
theorem pending_foldl_unsubscribe (es : List EntityId) (a : Awaiting) :
    (es.foldl unsubscribe a).pending = a.pending.filter (· ∉ es) := by
  induction es generalizing a with
  | nil => simp
  | cons e es ih =>
    rw [List.foldl_cons, ih]
    simp only [unsubscribe, List.filter_filter]
    refine List.filter_congr fun x _ => ?_
    simp [Bool.and_comm]

/-- After a pass those wait who did before, and whoever is left of the pass. -/
theorem pending_hearAll_pass {p : PassTrace} (hp : ∀ c ∈ p.requests, c.ofSymbol) {a : Awaiting}
    (fresh : (a.pending ++ p.spawned).Nodup) :
    (a.hearAll p.calls).pending = a.pending ++ p.kept := by
  have h := pending_hearAll hp fresh
  unfold PassTrace.calls PassTrace.kept
  rw [hearAll_append]
  split
  · -- a failed pass: of its entities none waits any longer, and all others still do
    rw [hearAll_map_discard, pending_foldl_unsubscribe, h, List.filter_append]
    have hold : a.pending.filter (· ∉ p.spawned) = a.pending := by
      refine List.filter_eq_self.mpr fun e he => ?_
      have hne := (List.nodup_append.mp fresh).2.2 e he
      simpa using fun h => hne e h rfl
    have hnew : (Call.spawned p.requests).filter (· ∉ p.spawned) = [] :=
      List.filter_eq_nil_iff.mpr fun e he => by simp [PassTrace.spawned, he]
    rw [hold, hnew]
  · exact h

/-- After any number of passes. -/
theorem pending_hearAll_flatMap {ps : List PassTrace}
    (hps : ∀ p ∈ ps, ∀ c ∈ p.requests, c.ofSymbol) {a : Awaiting}
    (fresh : (a.pending ++ ps.flatMap PassTrace.spawned).Nodup) :
    (a.hearAll (ps.flatMap PassTrace.calls)).pending = a.pending ++ ps.flatMap PassTrace.kept := by
  induction ps generalizing a with
  | nil => simp
  | cons p ps ih =>
    rw [List.flatMap_cons, ← List.append_assoc] at fresh
    have hp := pending_hearAll_pass (hps p List.mem_cons_self) (List.Nodup.of_append_left fresh)
    rw [List.flatMap_cons, hearAll_append, ih fun q hq => hps q (List.mem_cons_of_mem _ hq)]
    · rw [hp, List.flatMap_cons, List.append_assoc]
    · rw [hp]
      refine fresh.sublist (List.Sublist.append_right (List.Sublist.append_left ?_ _) _)
      unfold PassTrace.kept
      split
      · exact List.nil_sublist _
      · exact List.Sublist.refl _

end Awaiting

end SpatialGrammar
