/-
SpatialGrammar/Names/Index.lean

Look-up by name in a list of declarations.

Several declarations may carry one name; the first one counts.  `Index.ofList` keeps
only those that count, and `get?_ofList` says that nothing is lost by it.
-/

namespace SpatialGrammar

/-- Declarations by name, each name once, in the order of their first declaration. -/
structure Index (β : Type) where
  entries : List (String × β)
  deriving DecidableEq, Repr

namespace Index

variable {β : Type}

/-- No declarations. -/
def empty : Index β := ⟨[]⟩

/-- The declaration under a name. -/
def get? (i : Index β) (name : String) : Option β := i.entries.lookup name

/-- A further declaration, which does not count if its name is taken. -/
def insertNew (i : Index β) (name : String) (b : β) : Index β :=
  match i.get? name with
  | some _ => i
  | none => ⟨i.entries ++ [(name, b)]⟩

/-- The index of a list of declarations. -/
def ofList (declarations : List (String × β)) : Index β :=
  declarations.foldl (fun i d => i.insertNew d.1 d.2) empty

theorem get?_insertNew (i : Index β) (name other : String) (b : β) :
    (i.insertNew name b).get? other = (i.get? other).or ([(name, b)].lookup other) := by
  unfold insertNew
  split
  case h_1 found =>
    by_cases h : other = name
    · subst h; simp [found]
    · simp [List.lookup_cons, beq_eq_false_iff_ne.mpr h]
  case h_2 => simp [get?, List.lookup_append]

/-- Looking up in the index finds what the first declaration of the name says. -/
theorem get?_ofList (declarations : List (String × β)) (name : String) :
    (ofList declarations).get? name = declarations.lookup name := by
  have fold (ds : List (String × β)) : ∀ i : Index β,
      (ds.foldl (fun i d => i.insertNew d.1 d.2) i).get? name =
        (i.get? name).or (ds.lookup name) := by
    induction ds with
    | nil => simp
    | cons d ds ih =>
      intro i
      rw [List.foldl_cons, ih, get?_insertNew, Option.or_assoc, ← List.lookup_append]
      rfl
  rw [ofList, fold]
  rfl

/-- Where declarations are entered under their keys, the first one with the key is found. -/
theorem get?_ofList_map {γ : Type} (key : β → String) (value : β → γ) (l : List β) (name : String) :
    (ofList (l.map fun b => (key b, value b))).get? name =
      (l.find? fun b => key b = name).map value := by
  rw [get?_ofList]
  induction l with
  | nil => rfl
  | cons b l ih =>
    rw [List.map_cons, List.lookup_cons, List.find?_cons]
    by_cases hb : key b = name
    · simp [hb]
    · simp [hb, beq_eq_false_iff_ne.mpr (Ne.symm hb), ih]

end Index

end SpatialGrammar
