/-
SpatialGrammar/Proofs/SubtreeRemoval.lean

What a removal takes out of a scene.

The walk down empties the place of each entity that it comes to and goes on to the children
that were listed there.  In a forest it comes to every entity below the one it began with, and
to no other (`Scene.Forest.get?_remove`), so what is left is told entity by entity
(`Scene.Pruned`): the subtree is gone, the former parent has one child less, and everything else
is as it was.  Where there is nothing to remove, the scene itself stays the same, so that
removing a second time does nothing (`Scene.Forest.remove_pruned`).
-/
import SpatialGrammar.Proofs.SceneHandles

namespace SpatialGrammar.Scene

variable {α : Type}

/-- Of `s` an entity has been taken out together with everything below it,
and `t` is what is left. -/
structure Pruned (s : Scene α) (top : EntityId) (t : Scene α) : Prop where
  /-- What is live is what was live and is not beneath the entity. -/
  contains_iff : ∀ id, t.contains id = true ↔ s.contains id = true ∧ ¬ s.Beneath id top
  /-- Of those that stay the former parent lists the entity no longer, and lists the others in the
  order in which it did; nothing else is different. -/
  get?_eq : ∀ id e, s.get? id = some e → ¬ s.Beneath id top → t.get? id = some { e with
    children := if (s.get? top).bind Entity.parent = some id then e.children.filter (· ≠ top)
      else e.children }
  /-- The scene differs in its entities only, and as many places have been given out. -/
  rest : t = { s with entities := t.entities } ∧ t.entities.size = s.entities.size

/-- Where there is nothing to remove, nothing is removed. -/
theorem remove_of_dead {s : Scene α} {top : EntityId} (h : s.get? top = none) :
    s.remove top = s := by
  have hdetach : s.detach top = s := by
    rw [detach, h]
    rfl
  rw [remove, hdetach]
  cases s.entities.size with
  | zero => rfl
  | succ depth => rw [clear, h]

/-- **Removing takes out exactly a subtree.**  What is not there cannot be removed, and what has
been removed cannot be removed again: in either case nothing changes. -/
theorem Forest.remove_pruned {s : Scene α} (hs : s.Forest) (top : EntityId) :
    Pruned s top (s.remove top) ∧ (s.contains top = false → s.remove top = s) ∧
      (s.remove top).remove top = s.remove top := by
  have hgone {id : EntityId} := (hs.get?_remove top id).1
  have hkept {id : EntityId} := (hs.get?_remove top id).2
  have hstays {id : EntityId} {e : Entity α} (he : s.get? id = some e) (hid : ¬ s.Beneath id top) :
      (s.remove top).get? id = some { e with
        children := if (s.get? top).bind Entity.parent = some id then e.children.filter (· ≠ top)
          else e.children } := by
    have hne : id ≠ top := fun heq => hid (heq ▸ .refl)
    rw [hkept hid, get?_detach, he]
    simp [hne]
  refine ⟨⟨?_, fun id e he hid => hstays he hid, remove_rest s top, size_remove s top⟩, ?_, ?_⟩
  · intro id
    simp only [contains, Option.isSome_iff_exists]
    constructor
    · rintro ⟨e, he⟩
      by_cases hid : s.Beneath id top
      · rw [hgone hid] at he
        cases he
      · rw [hkept hid, get?_detach] at he
        obtain ⟨e₀, he₀, -⟩ := Option.map_eq_some_iff.mp he
        exact ⟨⟨e₀, he₀⟩, hid⟩
    · rintro ⟨⟨e, he⟩, hid⟩
      exact ⟨_, hstays he hid⟩
  · intro hdead
    exact remove_of_dead (by simpa [contains] using hdead)
  · exact remove_of_dead (hgone .refl)

/-- A holder with four objects, of which the second one hangs below the
first and carries the third. -/
def nested : Scene Float32 :=
  let begun := beginRun (.empty (.ofList []) (.ofList []) ⟨0, 0, 0⟩)
  let one := (begun.spawn ⟨"A", ""⟩ (⟨#[], 0⟩ : Replay)).2.1
  let two := (one.spawn ⟨"B", ""⟩ (⟨#[], 0⟩ : Replay)).2.1
  let three := (two.spawn ⟨"C", ""⟩ (⟨#[], 0⟩ : Replay)).2.1
  let four := (three.spawn ⟨"D", ""⟩ (⟨#[], 0⟩ : Replay)).2.1
  ((four.setParent 2 1 false).2.setParent 3 2 true).2

/-- With the second object the third one goes too; the first loses its child, and the
holder keeps both of its own. -/
theorem remove_pruned_nested : nested.Forest ∧ Pruned nested 2 (nested.remove 2) ∧
    (nested.remove 2).live.map Prod.fst = [0, 1, 4] ∧
    ((nested.remove 2).get? 0).map Entity.children = some [1, 4] ∧
    ((nested.remove 2).get? 1).map Entity.children = some [] ∧
    nested.contains 5 = false ∧ nested.remove 5 = nested ∧
    (nested.remove 2).remove 2 = nested.remove 2 := by
  have hreachable : nested.Reachable :=
    ((((((Reachable.empty ..).beginRun.spawn ..).spawn ..).spawn ..).spawn ..).setParent
      ..).setParent ..
  have hforest := hreachable.forest
  have habsent : nested.contains 5 = false := by decide +kernel
  obtain ⟨hpruned, -, hagain⟩ := hforest.remove_pruned 2
  obtain ⟨-, hnothing, -⟩ := hforest.remove_pruned 5
  refine ⟨hforest, hpruned, ?_, ?_, ?_, habsent, hnothing habsent, hagain⟩
  · decide +kernel
  · decide +kernel
  · decide +kernel

end SpatialGrammar.Scene
