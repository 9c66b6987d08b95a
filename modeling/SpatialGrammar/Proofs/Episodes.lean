/-
SpatialGrammar/Proofs/Episodes.lean

What an exclusion set remembers, told from its history.

An episode is the longest run of records of one symbol at the end of the calls since the last
clear.  The set holds that symbol and, without repetition, the indices of the episode in the
order in which they first occur (`ExclusionSet.after_remembers_episode`).  So a record of
another symbol ends an episode as a clear does, and a symbol that is come back to begins a new
one, of which nothing is known from the earlier one.

The latest call is the last of the list, so the proofs go by induction from its end: each
operation of the history is told for a list with one more clear and for a list with one more
record.
-/
import Mathlib.Data.List.DropRight
import SpatialGrammar.Proofs.Lineage
import SpatialGrammar.Rule.Exclusion

namespace SpatialGrammar

namespace ExclusionSet

/-! ### Histories -/

/-- What is done with a set. -/
inductive Call where
  | record (parent : SymbolId) (index : Option Nat)
  | clear
  deriving DecidableEq, Repr

namespace Call

/-- The set after a call. -/
def apply (e : ExclusionSet) : Call → ExclusionSet
  | record p i => e.record p i
  | clear => e.clear

/-- The symbol that is recorded. -/
def parent? : Call → Option SymbolId
  | record p _ => some p
  | clear => none

/-- The index that is recorded. -/
def index? : Call → Option Nat
  | record _ i => i
  | clear => none

end Call

/-- The set after a list of calls, the first of which finds it empty. -/
def after (calls : List Call) : ExclusionSet := calls.foldl Call.apply empty

/-- The calls since the last clear. -/
def sinceClear (calls : List Call) : List Call := calls.rtakeWhile (· ≠ .clear)

/-- The symbol of the last record since the last clear. -/
def lastParent? (calls : List Call) : Option SymbolId :=
  (sinceClear calls).getLast?.bind Call.parent?

/-- The longest run of records of that symbol at the end of the calls since the last clear. -/
def episode (calls : List Call) : List Call :=
  (sinceClear calls).rtakeWhile fun c => c.parent? = lastParent? calls

variable (calls : List Call) (p : SymbolId) (i : Option Nat)

theorem after_concat (c : Call) : after (calls ++ [c]) = c.apply (after calls) := by
  rw [after, List.foldl_append]
  rfl

/-! ### One more clear -/

theorem sinceClear_clear : sinceClear (calls ++ [.clear]) = [] :=
  List.rtakeWhile_concat_neg _ _ _ (by simp)

theorem lastParent?_clear : lastParent? (calls ++ [.clear]) = none := by
  rw [lastParent?, sinceClear_clear]
  rfl

theorem episode_clear : episode (calls ++ [.clear]) = [] := by
  rw [episode, sinceClear_clear, List.rtakeWhile_nil]

/-! ### One more record -/

theorem sinceClear_record :
    sinceClear (calls ++ [.record p i]) = sinceClear calls ++ [.record p i] :=
  List.rtakeWhile_concat_pos _ _ _ (by simp)

theorem lastParent?_record : lastParent? (calls ++ [.record p i]) = some p := by
  rw [lastParent?, sinceClear_record, List.getLast?_concat]
  rfl

/-- A record belongs to the present episode if that is of the same symbol, and else begins one. -/
theorem episode_record : episode (calls ++ [.record p i]) =
    (if lastParent? calls = some p then episode calls else []) ++ [.record p i] := by
  rw [episode, lastParent?_record, sinceClear_record,
    List.rtakeWhile_concat_pos _ _ _ (by simp [Call.parent?])]
  congr 1
  split
  · next hsame => rw [episode, hsame]
  · next hother =>
    -- what comes before it ends with a record of another symbol, unless it is empty
    rw [List.rtakeWhile_eq_nil_iff]
    intro hne
    rw [lastParent?, List.getLast?_eq_getLast_of_ne_nil hne, Option.bind_some] at hother
    simpa using hother

theorem filterMap_index?_concat (cs : List Call) :
    (cs ++ [Call.record p i]).filterMap Call.index? = cs.filterMap Call.index? ++ i.toList := by
  rw [List.filterMap_append]
  cases i <;> rfl

/-- One more entry is kept unless it has occurred. -/
theorem eraseDups_concat (is : List Nat) (j : Nat) :
    (is ++ [j]).eraseDups = if j ∈ is.eraseDups then is.eraseDups else is.eraseDups ++ [j] := by
  rw [List.eraseDups_append]
  split
  · next hj => simp [List.removeAll, List.mem_eraseDups.mp hj]
  · next hj => simp [List.removeAll, mt List.mem_eraseDups.mpr hj, List.eraseDups_cons]

/-- A record adds to what is remembered of its symbol and drops what is remembered of another. -/
theorem indices_record {e : ExclusionSet} {tried : List Nat} (h : e.indices = tried.eraseDups) :
    (e.record p i).indices =
      ((if e.parent = some p then tried else []) ++ i.toList).eraseDups := by
  have habout : (e.about p).indices = (if e.parent = some p then tried else []).eraseDups := by
    unfold about
    split
    · exact h
    · rfl
  cases i with
  | none => rw [Option.toList_none, List.append_nil, ← habout, record]
  | some j =>
    rw [Option.toList_some, eraseDups_concat, ← habout, record]
    split <;> rfl

/-! ### What is remembered -/

/-- **An exclusion set remembers the current episode and nothing else.** -/
theorem after_remembers_episode (calls : List Call) :
    (after calls).parent = lastParent? calls ∧
      (after calls).indices = ((episode calls).filterMap Call.index?).eraseDups := by
  induction calls using List.reverseRecOn with
  | nil => exact ⟨rfl, rfl⟩
  | append_singleton calls c ih =>
    obtain ⟨hparent, hindices⟩ := ih
    rw [after_concat]
    cases c with
    | clear =>
      rw [lastParent?_clear, episode_clear]
      exact ⟨rfl, rfl⟩
    | record p i =>
      rw [lastParent?_record, episode_record, filterMap_index?_concat, ← hparent]
      refine ⟨parent_record _ p i, (indices_record p i hindices).trans ?_⟩
      split <;> rfl

/-- Of the first episode of a symbol that is come back to nothing is left. -/
example : after [.record 4 (some 1), .record 9 (some 0), .record 4 (some 2), .record 4 none,
    .record 4 (some 0), .record 4 (some 2)] = ⟨some 4, [2, 0]⟩ := by
  decide

end ExclusionSet

end SpatialGrammar
