/-
SpatialGrammar/Proofs/Turns.lean

The order of the requests in a transcript.

While a pass reads its symbols the entities have their turns one after another: an
entity is made, methods are run on it, and it is tested, by which its turn is over.
`Call.Turns x calls y` says that the requests keep to this, from a moment when it is
the turn of `x` to one when it is the turn of `y`; between turns entities are taken
back or told of the end.  An entity whose turn is over came to its test (`tested`), and
one whose turn it is was made before (`made`), with nothing but methods in between.
The entities tested are the entities made, in the same order (`checked_eq_spawned`).
-/
import Mathlib.Data.List.Induction
import SpatialGrammar.Proofs.Transcript

namespace SpatialGrammar

namespace Call

/-- Whether an entity was made by this request. -/
def isSpawn : Call → Bool
  | spawn .. => true
  | _ => false

/-- Whether an entity was tested by this request. -/
def isCheck : Call → Bool
  | check .. => true
  | _ => false

/-- Whether this is a method of the entity. -/
def isMethodOf (e : EntityId) : Call → Bool
  | method e' _ _ => e' = e
  | _ => false

/-- Whether this is a test of the entity. -/
def isCheckOf (e : EntityId) : Call → Bool
  | check e' _ => e' = e
  | _ => false

/-- Whether this is a test by which a violation was found. -/
def isViolation : Call → Bool
  | check _ bad => bad
  | _ => false

/-- The entity that was tested by this request. -/
def checked? : Call → Option EntityId
  | check e _ => some e
  | _ => none

/-- The entities tested, in order. -/
def checked (calls : List Call) : List EntityId := calls.filterMap checked?

/-- Whose turn it is before and after a request; nobody's is `none`. -/
inductive Turn : Option EntityId → Call → Option EntityId → Prop
  | spawn (e : EntityId) (request : SpawnRequest) : Turn none (.spawn e request) (some e)
  | method (e : EntityId) (call : MethodCall) (found : Bool) :
      Turn (some e) (.method e call found) (some e)
  | check (e : EntityId) (bad : Bool) : Turn (some e) (.check e bad) none
  | discard (e : EntityId) : Turn none (.discard e) none
  | settle (e : EntityId) : Turn none (.settle e) none

/-- Whose turn it is before and after some requests. -/
inductive Turns : Option EntityId → List Call → Option EntityId → Prop
  | nil (x : Option EntityId) : Turns x [] x
  | cons {x y z : Option EntityId} {c : Call} {calls : List Call} :
      Turn x c y → Turns y calls z → Turns x (c :: calls) z

namespace Turns

variable {x y z : Option EntityId} {e : EntityId} {calls before after xs ys : List Call}

theorem append (h : Turns x xs y) (h' : Turns y ys z) : Turns x (xs ++ ys) z := by
  induction h with
  | nil => exact h'
  | cons hc _ ih => exact .cons hc (ih h')

theorem push {c : Call} (h : Turns x xs y) (hc : Turn y c z) : Turns x (xs ++ [c]) z :=
  h.append (.cons hc (.nil z))

theorem split (h : Turns x (xs ++ ys) z) : ∃ y, Turns x xs y ∧ Turns y ys z := by
  induction xs generalizing x with
  | nil => exact ⟨x, .nil x, h⟩
  | cons c xs ih =>
    cases h with
    | cons hc h =>
      obtain ⟨y, hxs, hys⟩ := ih h
      exact ⟨y, .cons hc hxs, hys⟩

/-- What is said between turns changes no turn. -/
theorem of_between (h : ∀ c ∈ calls, Turn none c none) : Turns none calls none := by
  induction calls with
  | nil => exact .nil none
  | cons c calls ih =>
    exact .cons (h c List.mem_cons_self) (ih fun d hd => h d (List.mem_cons_of_mem c hd))

theorem map_discard (es : List EntityId) : Turns none (es.map .discard) none := by
  refine of_between fun c hc => ?_
  obtain ⟨e, -, rfl⟩ := List.mem_map.mp hc
  exact .discard e

theorem map_settle (es : List EntityId) : Turns none (es.map .settle) none := by
  refine of_between fun c hc => ?_
  obtain ⟨e, -, rfl⟩ := List.mem_map.mp hc
  exact .settle e

/-- A turn that is over has come to its test. -/
theorem tested (h : Turns (some e) calls none) :
    ∃ methods bad rest, calls = methods ++ .check e bad :: rest ∧
      (∀ c ∈ methods, c.isMethodOf e) ∧ Turns none rest none := by
  induction calls with
  | nil => cases h
  | cons c calls ih =>
    cases h with
    | cons hc h =>
      cases hc with
      | method _ call found =>
        obtain ⟨methods, bad, rest, rfl, hmethods, hrest⟩ := ih h
        refine ⟨.method e call found :: methods, bad, rest, rfl, ?_, hrest⟩
        intro d hd
        rcases List.mem_cons.mp hd with rfl | hd
        · simp [isMethodOf]
        · exact hmethods d hd
      | check _ bad => exact ⟨[], bad, calls, rfl, by simp, h⟩

/-- A turn has begun with the making of the entity. -/
theorem made (h : Turns none calls (some e)) :
    ∃ earlier request methods, calls = earlier ++ .spawn e request :: methods ∧
      ∀ c ∈ methods, c.isMethodOf e := by
  induction calls using List.reverseRecOn with
  | nil => cases h
  | append_singleton calls c ih =>
    obtain ⟨y, hcalls, hc⟩ := h.split
    cases hc with
    | cons hc hnil =>
      cases hnil
      cases hc with
      | spawn _ request => exact ⟨calls, request, [], rfl, by simp⟩
      | method _ call found =>
        obtain ⟨earlier, request, methods, rfl, hmethods⟩ := ih hcalls
        refine ⟨earlier, request, methods ++ [.method e call found], by simp, ?_⟩
        intro d hd
        rcases List.mem_append.mp hd with hd | hd
        · exact hmethods d hd
        · simp [List.mem_singleton.mp hd, isMethodOf]

/-- A method is run in the turn of its entity. -/
theorem of_method {call : MethodCall} {found : Bool}
    (h : Turns x (before ++ .method e call found :: after) z) :
    Turns x before (some e) ∧ Turns (some e) after z := by
  obtain ⟨y, hbefore, hafter⟩ := h.split
  cases hafter with
  | cons hc hafter => cases hc; exact ⟨hbefore, hafter⟩

/-- An entity is tested at the end of its turn. -/
theorem of_check {bad : Bool} (h : Turns x (before ++ .check e bad :: after) z) :
    Turns x before (some e) ∧ Turns none after z := by
  obtain ⟨y, hbefore, hafter⟩ := h.split
  cases hafter with
  | cons hc hafter => cases hc; exact ⟨hbefore, hafter⟩

/-- The turn of an entity begins when it is made. -/
theorem of_spawn {request : SpawnRequest} (h : Turns x (before ++ .spawn e request :: after) z) :
    Turns x before none ∧ Turns (some e) after z := by
  obtain ⟨y, hbefore, hafter⟩ := h.split
  cases hafter with
  | cons hc hafter => cases hc; exact ⟨hbefore, hafter⟩

/-- The next entity that is made after a test has its own turn, so up to then nothing is tested. -/
theorem filter_isCheck_takeWhile (h : Turns none calls z) :
    (calls.takeWhile (!·.isSpawn)).filter isCheck = [] := by
  induction calls with
  | nil => rfl
  | cons c calls ih =>
    cases h with
    | cons hc h =>
      cases hc with
      | spawn => rfl
      | discard => exact ih h
      | settle => exact ih h

/-- **The entities tested are the entities made**, in the same order. -/
theorem checked_eq_spawned (h : Turns x calls none) :
    checked calls = x.toList ++ spawned calls := by
  induction calls generalizing x with
  | nil => cases h; rfl
  | cons c calls ih =>
    cases h with
    | cons hc h =>
      have hrest := ih h
      cases hc with
      | spawn e request => exact hrest
      | method e call found => exact hrest
      | check e bad => exact congrArg (e :: ·) hrest
      | discard e => exact hrest
      | settle e => exact hrest

end Turns

/-! ### What follows from the order -/

/-- An entity that was made is among those made. -/
theorem mem_spawned {calls : List Call} {e : EntityId} (request : SpawnRequest)
    (h : .spawn e request ∈ calls) : e ∈ spawned calls :=
  List.mem_filterMap.mpr ⟨_, h, rfl⟩

/-- The tests of an entity are those that have it. -/
theorem length_filter_isCheckOf (calls : List Call) (e : EntityId) :
    (calls.filter (isCheckOf e)).length = (checked calls).count e := by
  induction calls with
  | nil => rfl
  | cons c calls ih =>
    cases c with
    | check e' bad =>
      by_cases he : e' = e
      · have hfilter : (Call.check e' bad :: calls).filter (isCheckOf e) =
            .check e' bad :: calls.filter (isCheckOf e) :=
          List.filter_cons_of_pos (by simp [isCheckOf, he])
        have hchecked : checked (.check e' bad :: calls) = e' :: checked calls := rfl
        rw [hfilter, hchecked, List.length_cons, ih, he, List.count_cons_self]
      · have hfilter : (Call.check e' bad :: calls).filter (isCheckOf e) =
            calls.filter (isCheckOf e) :=
          List.filter_cons_of_neg (by simp [isCheckOf, he])
        have hchecked : checked (.check e' bad :: calls) = e' :: checked calls := rfl
        rw [hfilter, hchecked, ih, List.count_cons_of_ne he]
    | spawn _ _ | method _ _ _ | discard _ | settle _ => exact ih

/-- Where no entity is made twice, one that is tested without violation is tested this once. -/
theorem Turns.filter_isCheckOf {calls : List Call} (h : Turns none calls none)
    (fresh : (spawned calls).Nodup) {e : EntityId} {bad : Bool} (he : .check e bad ∈ calls) :
    calls.filter (isCheckOf e) = [.check e bad] := by
  have hmem : .check e bad ∈ calls.filter (isCheckOf e) :=
    List.mem_filter.mpr ⟨he, by simp [isCheckOf]⟩
  have hle : (calls.filter (isCheckOf e)).length ≤ 1 := by
    have hchecked : checked calls = spawned calls := h.checked_eq_spawned
    rw [length_filter_isCheckOf, hchecked]
    exact List.nodup_iff_count_le_one.mp fresh e
  obtain ⟨c, hc⟩ := List.length_eq_one_iff.mp
    (Nat.le_antisymm hle (List.length_pos_of_mem hmem))
  rw [hc] at hmem ⊢
  rw [List.mem_singleton.mp hmem]

/-- Where no entity is made twice, no method is run on an entity that has been tested. -/
theorem Turns.not_isMethodOf {x : Option EntityId} {before after : List Call} {e : EntityId}
    {bad : Bool} (h : Turns none (before ++ .check e bad :: after) x)
    (fresh : (spawned (before ++ .check e bad :: after)).Nodup) :
    ∀ c ∈ after, ¬ c.isMethodOf e := by
  intro c hc hm
  obtain ⟨hbefore, hafter⟩ := h.of_check
  obtain ⟨xs, ys, rfl⟩ := List.append_of_mem hc
  cases c with
  | method e' call found =>
    obtain rfl : e' = e := by simpa [isMethodOf] using hm
    -- the turn of the test and the turn of the method each began with the making of the entity
    obtain ⟨earlier, request, methods, rfl, -⟩ := hbefore.made
    obtain ⟨between, request', methods', rfl, -⟩ := hafter.of_method.1.made
    have hfirst : e' ∈ spawned (earlier ++ .spawn e' request :: methods) :=
      mem_spawned request (by simp)
    have hsecond : e' ∈ spawned (.check e' bad :: (between ++ .spawn e' request' :: methods' ++
        .method e' call found :: ys)) :=
      mem_spawned request' (by simp)
    rw [spawned_append] at fresh
    exact (List.nodup_append.mp fresh).2.2 e' hfirst e' hsecond rfl
  | spawn _ _ | check _ _ | discard _ | settle _ => simp [isMethodOf] at hm

end Call

end SpatialGrammar
