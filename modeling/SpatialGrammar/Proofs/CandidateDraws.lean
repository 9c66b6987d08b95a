/-
SpatialGrammar/Proofs/CandidateDraws.lean

How a candidate is drawn.

Two indices are drawn, one for a face of those that occur and one for a candidate at that
face.  The pairs of such indices (`Candidate.Choice`) number the candidates of a list without
repetitions: each pair chooses one, and each candidate is chosen by one pair
(`Candidate.chosen_bijective`).  So with every index equally likely, all faces are, and
all candidates at one face are.

What is asked of a source is seen by watching it (`Watched`).  Each of the pairs may come up,
since a source may answer as it is told (`Scripted`).
-/
import SpatialGrammar.Proofs.CandidateSearch

namespace SpatialGrammar

/-! ### Sources that are watched and told -/

/-- What may be asked of a source. -/
inductive Question where
  | unit
  | index (bound : Nat)
  deriving DecidableEq, Repr

/-- A source and what has been asked of it, in order. -/
structure Watched (ρ : Type) where
  source : ρ
  asked : List Question

namespace Watched

variable {α ρ : Type}

/-- A source of which nothing has been asked. -/
def fresh (s : ρ) : Watched ρ := ⟨s, []⟩

instance [RandomSource ρ α] : RandomSource (Watched ρ) α where
  nextUnit s :=
    let (u, source) := RandomSource.nextUnit s.source
    (u, ⟨source, s.asked ++ [.unit]⟩)
  nextIndex bound s :=
    let (i, source) := RandomSource.nextIndex bound s.source
    (i, ⟨source, s.asked ++ [.index bound]⟩)

end Watched

/-- A source that gives the indices of a list in turn, each reduced to the bound. -/
structure Scripted (α : Type) where
  number : α
  indices : List Nat

instance {α : Type} : RandomSource (Scripted α) α where
  nextUnit s := (s.number, s)
  nextIndex bound s := (s.indices.headD 0 % bound, { s with indices := s.indices.tail })

theorem Scripted.inBounds (α : Type) : RandomSource.InBounds (Scripted α) :=
  fun _ s hn => Nat.mod_lt (s.indices.headD 0) hn

namespace Candidate

variable {α ρ : Type} {candidates : List Candidate}

/-! ### Faces that occur -/

theorem pairwise_anchorFaces (candidates : List Candidate) :
    (anchorFaces candidates).Pairwise fun f g => f.index < g.index := by
  have hall : Face.all.Pairwise fun f g => f.index < g.index := by decide
  exact hall.filter _

theorem nodup_anchorFaces (candidates : List Candidate) : (anchorFaces candidates).Nodup := by
  apply (pairwise_anchorFaces candidates).imp
  rintro f _ hlt rfl
  exact Nat.lt_irrefl f.index hlt

/-! ### Choices -/

/-- The number of a face among those that occur, and the number of a candidate among those at that
face. -/
def Choice (candidates : List Candidate) : Type :=
  (i : Fin (anchorFaces candidates).length) ×
    Fin (atFace candidates (anchorFaces candidates)[i]).length

/-- The candidate that is chosen. -/
def chosen (candidates : List Candidate) (choice : Choice candidates) : {c // c ∈ candidates} :=
  ⟨(atFace candidates (anchorFaces candidates)[choice.1])[choice.2],
    (List.mem_filter.mp (List.getElem_mem _)).1⟩

theorem anchorFace_chosen (choice : Choice candidates) :
    (chosen candidates choice).1.anchorFace = (anchorFaces candidates)[choice.1] := by
  have hthere := (List.mem_filter.mp (List.getElem_mem
    (l := atFace candidates (anchorFaces candidates)[choice.1]) choice.2.isLt)).2
  exact of_decide_eq_true hthere

/-- **Every candidate is chosen in exactly one way.** -/
theorem chosen_bijective (h : candidates.Nodup) : Function.Bijective (chosen candidates) := by
  constructor
  · rintro ⟨i, j⟩ ⟨i', j'⟩ heq
    have hface := (anchorFace_chosen ⟨i, j⟩).symm.trans
      ((congrArg (fun c => c.1.anchorFace) heq).trans (anchorFace_chosen ⟨i', j'⟩))
    obtain rfl : i = i' := Fin.ext ((nodup_anchorFaces candidates).getElem_inj_iff.mp hface)
    have hthere : (atFace candidates (anchorFaces candidates)[i]).Nodup := h.filter _
    obtain rfl : j = j' := Fin.ext (hthere.getElem_inj_iff.mp (congrArg Subtype.val heq))
    rfl
  · rintro ⟨c, hc⟩
    obtain ⟨i, hi, hface⟩ := List.mem_iff_getElem.mp (mem_anchorFaces.mpr ⟨c, hc, rfl⟩)
    have hthere : c ∈ atFace candidates (anchorFaces candidates)[i] :=
      List.mem_filter.mpr ⟨hc, decide_eq_true hface.symm⟩
    obtain ⟨j, hj, hcandidate⟩ := List.mem_iff_getElem.mp hthere
    exact ⟨⟨⟨i, hi⟩, ⟨j, hj⟩⟩, Subtype.ext hcandidate⟩

/-- Among the candidates at one face the choice goes in the order of the list. -/
theorem ofFn_chosen (i : Fin (anchorFaces candidates).length) :
    (List.ofFn fun j => (chosen candidates ⟨i, j⟩).1) =
      candidates.filter fun c => c.anchorFace = (anchorFaces candidates)[i] :=
  List.ofFn_getElem

/-! ### Draws -/

variable [RandomSource ρ α]

/-- The two indices of a choice are what the source gives when it is asked for them. -/
def Choice.DrawnFrom (choice : Choice candidates) (s : ρ) : Prop :=
  (RandomSource.nextIndex (anchorFaces candidates).length s).1 = choice.1 ∧
  (RandomSource.nextIndex (atFace candidates (anchorFaces candidates)[choice.1]).length
    (RandomSource.nextIndex (anchorFaces candidates).length s).2).1 = choice.2

/-- A source that keeps to its bounds makes a choice. -/
theorem exists_drawnFrom (hρ : RandomSource.InBounds ρ) (hne : candidates ≠ []) (s : ρ) :
    ∃ choice : Choice candidates, choice.DrawnFrom s := by
  obtain ⟨c, hc⟩ := List.exists_mem_of_ne_nil candidates hne
  have hfaces := List.ne_nil_of_mem (mem_anchorFaces.mpr ⟨c, hc, rfl⟩)
  have hi := hρ.lt_length hfaces (s := s) rfl
  have hj := hρ.lt_length (atFace_ne_nil (List.getElem_mem hi))
    (s := (RandomSource.nextIndex (anchorFaces candidates).length s).2) rfl
  exact ⟨⟨⟨_, hi⟩, ⟨_, hj⟩⟩, rfl, rfl⟩

/-- Each choice is made by a source that is told to make it. -/
theorem Choice.drawnFrom_scripted (choice : Choice candidates) (number : α) :
    choice.DrawnFrom (⟨number, [choice.1, choice.2]⟩ : Scripted α) :=
  ⟨Nat.mod_eq_of_lt choice.1.isLt, Nat.mod_eq_of_lt choice.2.isLt⟩

/-- **What is drawn is the candidate that is chosen**, and nothing more is drawn. -/
theorem Choice.DrawnFrom.pick_eq {choice : Choice candidates} {s : ρ} (h : choice.DrawnFrom s) :
    pick candidates s = (some (chosen candidates choice).1,
      (RandomSource.nextIndex (atFace candidates (anchorFaces candidates)[choice.1]).length
        (RandomSource.nextIndex (anchorFaces candidates).length s).2).2) :=
  Candidate.pick_eq (Prod.ext h.1 rfl) choice.1.isLt (Prod.ext h.2 rfl) choice.2.isLt

/-- **Drawing misses no candidate and prefers none.**  From an empty list nothing is drawn.
Otherwise a source is asked for two indices and for nothing else, for that of a face among the faces
that occur and for that of a candidate among those at the face.  The pairs of such indices, all of
which may come up, choose each candidate of a list without repetitions exactly once, and those with
the same face go through the candidates at it in order. -/
theorem pick_exhaustive (α : Type) :
    (∀ (ρ : Type) [RandomSource ρ α] (s : ρ), pick [] s = (none, s)) ∧
    ∀ candidates : List Candidate, candidates ≠ [] → candidates.Nodup →
      (∀ f, f ∈ anchorFaces candidates ↔ ∃ c ∈ candidates, c.anchorFace = f) ∧
      ((anchorFaces candidates).Pairwise fun f g => f.index < g.index) ∧
      Function.Bijective (chosen candidates) ∧
      (∀ i, (List.ofFn fun j => (chosen candidates ⟨i, j⟩).1) =
        candidates.filter fun c => c.anchorFace = (anchorFaces candidates)[i]) ∧
      (∀ (ρ : Type) [RandomSource ρ α] (s : ρ) (choice : Choice candidates), choice.DrawnFrom s →
        (pick candidates s).1 = some (chosen candidates choice).1 ∧
        (pick candidates (Watched.fresh s)).2.asked =
          [.index (anchorFaces candidates).length,
            .index (atFace candidates (anchorFaces candidates)[choice.1]).length]) ∧
      (∀ (ρ : Type) [RandomSource ρ α], RandomSource.InBounds ρ → ∀ s : ρ,
        ∃ choice : Choice candidates, choice.DrawnFrom s) ∧
      ∀ (number : α) (choice : Choice candidates),
        choice.DrawnFrom (⟨number, [choice.1, choice.2]⟩ : Scripted α) := by
  refine ⟨fun ρ _ s => rfl, fun candidates hne hnodup => ⟨fun f => mem_anchorFaces,
    pairwise_anchorFaces candidates, chosen_bijective hnodup, ofFn_chosen, ?_, ?_, ?_⟩⟩
  · intro ρ _ s choice h
    have hwatched : choice.DrawnFrom (Watched.fresh s) := h
    rw [h.pick_eq, hwatched.pick_eq]
    exact ⟨rfl, rfl⟩
  · exact fun ρ _ hρ s => exists_drawnFrom hρ hne s
  · exact fun number choice => choice.drawnFrom_scripted number

/-- Three candidates at two faces. -/
theorem pick_exhaustive_three :
    let candidates : List Candidate := [⟨0, .zNeg, .xPos⟩, ⟨1, .xPos, .xNeg⟩, ⟨2, .zNeg, .zPos⟩]
    let s : Scripted Nat := ⟨0, [1, 1]⟩
    candidates ≠ [] ∧ candidates.Nodup ∧ RandomSource.InBounds (Scripted Nat) ∧
      anchorFaces candidates = [.xPos, .zNeg] ∧ Function.Bijective (chosen candidates) ∧
      (∀ t : Scripted Nat, ∃ choice : Choice candidates, choice.DrawnFrom t) ∧
      ∃ choice : Choice candidates, choice.DrawnFrom s ∧
        (chosen candidates choice).1 = ⟨2, .zNeg, .zPos⟩ ∧
        (pick candidates s).1 = some ⟨2, .zNeg, .zPos⟩ ∧
        (pick candidates (Watched.fresh s)).2.asked = [.index 2, .index 2] := by
  intro candidates s
  have hne : candidates ≠ [] := List.cons_ne_nil _ _
  have hnodup : candidates.Nodup := by decide
  have hbounds := Scripted.inBounds Nat
  obtain ⟨-, -, hbijective, -, hdrawn, hchoice, -⟩ := (pick_exhaustive Nat).2 candidates hne hnodup
  let choice : Choice candidates := ⟨⟨1, by decide⟩, ⟨1, by decide⟩⟩
  obtain ⟨hpick, hasked⟩ := hdrawn (Scripted Nat) s choice ⟨rfl, rfl⟩
  exact ⟨hne, hnodup, hbounds, rfl, hbijective, hchoice _ hbounds, choice, ⟨rfl, rfl⟩, rfl, hpick,
    hasked⟩

end Candidate

end SpatialGrammar
