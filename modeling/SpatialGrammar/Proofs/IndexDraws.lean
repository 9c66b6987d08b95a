/-
SpatialGrammar/Proofs/IndexDraws.lean

Indices that are drawn lie below the bound.

`RandomSource.InBounds` says so of a source.  It is what every look-up by a drawn index
relies on, and the generator has it, since it masks or reduces the words that it takes.
-/
import SpatialGrammar.Proofs.Selection
import SpatialGrammar.Random.Xoroshiro

namespace SpatialGrammar

/-- The indices that a source draws lie below the bound. -/
def RandomSource.InBounds (ρ : Type) {α : Type} [RandomSource ρ α] : Prop :=
  ∀ (n : Nat) (s : ρ), 0 < n → (RandomSource.nextIndex n s).1 < n

/-- So an index drawn for a list that is not empty is that of a place in it. -/
theorem RandomSource.InBounds.lt_length {α ρ β : Type} [RandomSource ρ α]
    (hρ : RandomSource.InBounds ρ) {l : List β} (hne : l ≠ []) {s s' : ρ} {i : Nat}
    (hi : RandomSource.nextIndex l.length s = (i, s')) : i < l.length := by
  have hlt := hρ l.length s (List.length_pos_iff.mpr hne)
  rwa [hi] at hlt

theorem Halves.inBounds : RandomSource.InBounds Halves := fun _ _ hn => hn

namespace Xoroshiro

theorem toNat_pos {bound : UInt64} (hbound : bound ≠ 0) : 0 < bound.toNat :=
  Nat.pos_of_ne_zero fun h => hbound (UInt64.toNat_inj.mp h)

theorem toNat_sub_one {bound : UInt64} (hbound : bound ≠ 0) : (bound - 1).toNat = bound.toNat - 1 :=
  UInt64.toNat_sub_of_le bound 1 (UInt64.le_iff_toNat_le.mpr (toNat_pos hbound))

/-- A word that is drawn lies below the bound, be it masked or a remainder. -/
theorem toNat_lt_of_below {bound word : UInt64} {s s' : Xoroshiro}
    (h : s.below bound = .ok (word, s')) : word.toNat < bound.toNat := by
  unfold below at h
  split at h
  · cases h
  · next hbound =>
    have hpos := toNat_pos hbound
    split at h
    · -- the mask is one less than the bound
      obtain ⟨rfl, -⟩ := Prod.mk.inj (Except.ok.inj h)
      rw [UInt64.toNat_and, toNat_sub_one hbound]
      exact Nat.lt_of_le_of_lt Nat.and_le_right (Nat.sub_lt hpos Nat.one_pos)
    · split at h
      · obtain ⟨rfl, -⟩ := Prod.mk.inj (Except.ok.inj h)
        rw [UInt64.toNat_mod]
        exact Nat.mod_lt _ hpos
      · obtain ⟨rfl, -⟩ := Prod.mk.inj (Except.ok.inj h)
        exact hpos

theorem inBounds : RandomSource.InBounds Xoroshiro := by
  intro n s hn
  unfold RandomSource.nextIndex instRandomSourceFloat32
  dsimp only
  split
  · next word s' hbelow =>
    have hlt := toNat_lt_of_below hbelow
    rw [UInt64.toNat_ofNat'] at hlt
    exact Nat.lt_of_lt_of_le hlt (Nat.mod_le _ _)
  · exact hn

end Xoroshiro

end SpatialGrammar
