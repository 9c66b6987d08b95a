/-
SpatialGrammar/Proofs/PassPoints.lean

The points of a pass.

Between two symbols a pass is at a point: some symbols are still to be read, the next
sentence is written in part, and an object may wait for its test.  `Run.Move` says how a
pass comes from one point to the next.  A pass goes through points only (`Run.pass_points`),
and an invariant of passes holds at all of them (`PassInvariant.points`), so a law of
every moment of a pass is one about points.
-/
import Mathlib.Logic.Relation
import SpatialGrammar.Proofs.PassRule

namespace SpatialGrammar

variable {α W ρ : Type}

/-- Where a pass is between two symbols. -/
structure PassPoint (W ρ : Type) where
  /-- The symbols still to be read. -/
  ids : List SymbolId
  /-- The next sentence so far. -/
  next : Sentence
  /-- The object that waits for its test. -/
  waiting : Option SymbolId
  state : RunState W ρ

/-- The point from which the pass begins. -/
def RunState.start (s : RunState W ρ) : PassPoint W ρ :=
  ⟨s.current.symbols.toList, .empty, none, { s with spawnedThisPass := #[] }⟩

variable [Scalar α] [Numeral α] [RandomSource ρ α] [World W ρ]

/-- What brings a pass from one point to the next: a symbol or a test that is passed. -/
inductive Run.Move (r : Run α W) : PassPoint W ρ → PassPoint W ρ → Prop
  | method {id rest next waiting s} : (s.arena.get id).kind = .method →
      Move r ⟨id :: rest, next, waiting, s⟩ ⟨rest, next, waiting, s.dispatch id waiting⟩
  | invalid {id rest next waiting s} : (s.arena.get id).kind = .invalid →
      Move r ⟨id :: rest, next, waiting, s⟩ ⟨rest, next, waiting, s⟩
  | check {ids next waiting s} : (r.check waiting s).1 = none →
      Move r ⟨ids, next, waiting, s⟩ ⟨ids, next, none, (r.check waiting s).2⟩
  | rule {id rest next s} : (s.arena.get id).kind = .rule →
      Move r ⟨id :: rest, next, none, s⟩
        ⟨rest, (r.expand id [] next s).1, none, (r.expand id [] next s).2⟩
  | object {id rest next s} : (s.arena.get id).kind = .object →
      Move r ⟨id :: rest, next, none, s⟩
        ⟨rest, (r.expand id [] next (s.spawn id)).1, some id, (r.expand id [] next (s.spawn id)).2⟩

/-- The pass that begins in a state comes to a point. -/
def Run.Points (r : Run α W) (s : RunState W ρ) : PassPoint W ρ → Prop :=
  Relation.ReflTransGen r.Move s.start

/-- **An invariant of passes holds at every point.** -/
theorem PassInvariant.points {r : Run α W}
    {I : List SymbolId → Sentence → Option SymbolId → RunState W ρ → Prop}
    (hI : PassInvariant r I) {s : RunState W ρ}
    (h : I s.current.symbols.toList .empty none { s with spawnedThisPass := #[] })
    {p : PassPoint W ρ} (hp : r.Points s p) : I p.ids p.next p.waiting p.state := by
  induction hp with
  | refl => exact h
  | tail _ hmove ih =>
    cases hmove with
    | method hk => exact hI.method hk ih
    | invalid hk => exact hI.invalid hk ih
    | check hc => exact hI.check hc ih
    | rule hk => exact hI.rule hk ih
    | object hk => exact hI.object hk ih

/-- **A pass goes through points**: one that is completed ends at one, and one that fails does so by
the test at one. -/
theorem Run.pass_points (r : Run α W) (s : RunState W ρ) :
    (r.pass s).Keeps r fun ids next waiting t => r.Points s ⟨ids, next, waiting, t⟩ := by
  have hI : PassInvariant r fun ids next waiting t => r.Points s ⟨ids, next, waiting, t⟩ :=
    ⟨fun hk h => h.tail (.method hk), fun hk h => h.tail (.invalid hk),
      fun hc h => h.tail (.check hc), fun hk h => h.tail (.rule hk),
      fun hk h => h.tail (.object hk)⟩
  exact hI.pass .refl

/-- The symbols at the end of a pass are those at a point of it. -/
theorem Run.exists_point_arena (r : Run α W) (s : RunState W ρ) :
    ∃ p, r.Points s p ∧ (r.pass s).state.arena = p.state.arena := by
  have hk := r.pass_points s
  rcases hp : r.pass s with ⟨next, t⟩ | ⟨symbol, t⟩ <;> rw [hp] at hk
  · exact ⟨_, hk, rfl⟩
  · obtain ⟨rest, next, waiting, u, hu, hc⟩ := hk
    exact ⟨_, hu, by simpa [hc] using r.check_arena waiting u⟩

end SpatialGrammar
