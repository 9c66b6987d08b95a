/-
SpatialGrammar/Proofs/RangeDraws.lean

Numbers that are drawn between two bounds.

Over the reals a number between two bounds is the lower one plus a fraction of their distance.
Bounds are meant to include the lower one and to exclude the upper one, and to leave the lower one
alone where they include nothing (`Scalar.Obeys`).  Bounds in order are obeyed by every fraction.
Bounds in reverse are not: their distance is negative, so that the number goes down from the first
of them, and it is that one only if the fraction is zero (`RandomSource.obeys_nextBetween_iff`).

Whatever is drawn between bounds is drawn in this way.  What is put in the places of the
placeholders of a text, and the coordinates of a point of a scatter area, are told from the list of
their bounds (`Placeholder.drawEach`); those of a valid document are in order.
-/
import SpatialGrammar.Proofs.CrossReferences
import SpatialGrammar.Proofs.ExactNumbers
import SpatialGrammar.Proofs.PlaceholderReading
import SpatialGrammar.Proofs.Shares

namespace SpatialGrammar

/-! ### Two bounds -/

namespace Scalar

/-- A number obeys two bounds as they are written: it is at least the lower one and below the upper
one, or it is the lower one if no number is that. -/
def Obeys (low high x : ℝ) : Prop :=
  (low < high → low ≤ x ∧ x < high) ∧ (high ≤ low → x = low)

/-- What a fraction of the distance leads to: bounds in order are obeyed, and between bounds in
reverse the number lies above the second and not above the first. -/
structure Between (low high x : ℝ) : Prop where
  obeys_iff : Obeys low high x ↔ low ≤ high ∨ x = low
  reversed : high < low → high < x ∧ x ≤ low

variable {low high u : ℝ}

theorem obeys_of_le (hle : low ≤ high) (hu : 0 ≤ u) (hu' : u < 1) :
    Obeys low high (low + (high - low) * u) := by
  constructor
  · intro hlt
    have hpos : 0 < high - low := sub_pos.mpr hlt
    constructor
    · exact le_add_of_nonneg_right (mul_nonneg hpos.le hu)
    · calc low + (high - low) * u < low + (high - low) * 1 := by gcongr
        _ = high := by ring
  · intro hge
    rw [le_antisymm hge hle]
    ring

theorem reversed_of_lt (hlt : high < low) (hu : 0 ≤ u) (hu' : u < 1) :
    high < low + (high - low) * u ∧ low + (high - low) * u ≤ low := by
  constructor <;> nlinarith

theorem between_of_fraction (hu : 0 ≤ u) (hu' : u < 1) :
    Between low high (low + (high - low) * u) := by
  refine ⟨?_, fun hlt => reversed_of_lt hlt hu hu'⟩
  constructor
  · intro hobeys
    rcases le_or_gt low high with hle | hlt
    · exact .inl hle
    · exact .inr (hobeys.2 hlt.le)
  · rintro (hle | heq)
    · exact obeys_of_le hle hu hu'
    · rcases le_or_gt low high with hle | hlt
      · exact obeys_of_le hle hu hu'
      · exact ⟨fun hlt' => absurd hlt' hlt.not_gt, fun _ => heq⟩

end Scalar

namespace RandomSource

variable {ρ : Type} [RandomSource ρ ℝ] {low high : ℝ} {s : ρ}

theorem nextBetween_real : (nextBetween low high s).1 = low + (high - low) * (nextUnit s).1 := rfl

theorem between_nextBetween (hu : (nextUnit s).1 ∈ Set.Ico (0 : ℝ) 1) :
    Scalar.Between low high (nextBetween low high s).1 :=
  Scalar.between_of_fraction hu.1 hu.2

/-- **Bounds are obeyed just if they are in order or nothing is added to the first one.** -/
theorem obeys_nextBetween_iff (hu : (nextUnit s).1 ∈ Set.Ico (0 : ℝ) 1) :
    Scalar.Obeys low high (nextBetween low high s).1 ↔ low ≤ high ∨ (nextUnit s).1 = 0 := by
  rw [(between_nextBetween hu).obeys_iff, nextBetween_real]
  constructor
  · rintro (hle | heq)
    · exact .inl hle
    · -- nothing is added if the distance is zero or the fraction is
      rcases mul_eq_zero.mp (add_eq_left.mp heq) with hzero | hzero
      · exact .inl (sub_eq_zero.mp hzero).ge
      · exact .inr hzero
  · rintro (hle | hzero)
    · exact .inl hle
    · rw [hzero, mul_zero, add_zero]
      exact .inr rfl

end RandomSource

/-! ### Lists of bounds -/

theorem Placeholder.between_drawEach {ρ : Type} [RandomSource ρ ℝ]
    (hρ : ∀ s : ρ, (RandomSource.nextUnit s).1 ∈ Set.Ico (0 : ℝ) 1) (bounds : List (ℝ × ℝ))
    (s : ρ) :
    List.Forall₂ (fun b x => Scalar.Between b.1 b.2 x) bounds (drawEach bounds s).1 := by
  induction bounds generalizing s with
  | nil => exact .nil
  | cons b bounds ih => exact .cons (RandomSource.between_nextBetween (hρ s)) (ih _)

/-- The bounds of the coordinates in an area. -/
def ScatterArea.bounds {α : Type} [Scalar α] (a : ScatterArea α) : List (α × α) :=
  [(a.origin.x, a.origin.x + a.size.x), (a.origin.y, a.origin.y + a.size.y),
    (a.origin.z, a.origin.z + a.size.z)]

theorem ScatterArea.toList_sample {α ρ : Type} [Scalar α] [RandomSource ρ α] (a : ScatterArea α)
    (s : ρ) : (a.sample s).1.toList = (Placeholder.drawEach a.bounds s).1 := rfl

/-- An area of a valid document has no negative size, so its bounds are in order. -/
theorem Document.bounds_le {d : Document ℝ} (hd : d.check = .ok ()) {a : ScatterArea ℝ}
    (ha : d.scatter = some a) : ∀ b ∈ a.bounds, b.1 ≤ b.2 := by
  have hsize := (check_eq_ok_iff.mp hd).scatter_size a ha
  simpa [Vec3.hasNegative, Vec3.toList, ScatterArea.bounds] using hsize

/-- **What is drawn between bounds obeys them, unless they are in reverse.**  A number drawn
by a fraction of the unit interval obeys its bounds just if they are in order or the fraction
is zero; otherwise it lies between the two, above the second one.  So do the numbers that are
put in the places of the placeholders of a text, in whatever way numbers are read and
written, and the coordinates of a point of a scatter area.  All bounds of the scatter area of
a valid document are obeyed. -/
theorem RandomSource.draws_obey_iff {ρ : Type} [RandomSource ρ ℝ]
    (hρ : ∀ s : ρ, (RandomSource.nextUnit s).1 ∈ Set.Ico (0 : ℝ) 1) :
    (∀ (low high : ℝ) (s : ρ),
      (Scalar.Obeys low high (nextBetween low high s).1 ↔ low ≤ high ∨ (nextUnit s).1 = 0) ∧
      (high < low → high < (nextBetween low high s).1 ∧ (nextBetween low high s).1 ≤ low)) ∧
    (∀ [Numeral ℝ] (text : List Char) (s : ρ),
      ∃ (pieces : List (Placeholder.Piece ℝ)) (numbers : List ℝ), Placeholder.Cut text pieces ∧
        (Placeholder.resolve text s).1.text = Placeholder.fill pieces numbers ∧
        List.Forall₂ (fun b x => Scalar.Between b.1 b.2 x)
          (pieces.filterMap Placeholder.Piece.bounds?) numbers) ∧
    (∀ (a : ScatterArea ℝ) (s : ρ),
      List.Forall₂ (fun b x => Scalar.Between b.1 b.2 x) a.bounds (a.sample s).1.toList) ∧
    ∀ (d : Document ℝ) (a : ScatterArea ℝ) (s : ρ), d.check = .ok () → d.scatter = some a →
      List.Forall₂ (fun b x => Scalar.Obeys b.1 b.2 x) a.bounds (a.sample s).1.toList := by
  have hsample (a : ScatterArea ℝ) (s : ρ) :
      List.Forall₂ (fun b x => Scalar.Between b.1 b.2 x) a.bounds (a.sample s).1.toList := by
    rw [a.toList_sample]
    exact Placeholder.between_drawEach hρ a.bounds s
  refine ⟨?_, ?_, hsample, ?_⟩
  · intro low high s
    exact ⟨obeys_nextBetween_iff (hρ s), (between_nextBetween (hρ s)).reversed⟩
  · intro _ text s
    obtain ⟨pieces, hcut⟩ := Placeholder.exists_cut (α := ℝ) text
    refine ⟨pieces, (Placeholder.drawEach (pieces.filterMap Placeholder.Piece.bounds?) s).1, hcut,
      ?_, ?_⟩
    · rw [hcut.resolve_eq s]
    · exact Placeholder.between_drawEach hρ _ s
  · intro d a s hd ha
    have hboth := (List.forall₂_and_left _ _).mpr ⟨Document.bounds_le hd ha, hsample a s⟩
    exact hboth.imp fun _ _ h => h.2.obeys_iff.mpr (.inl h.1)

/-- A source that gives one fraction every time. -/
instance : RandomSource (Set.Ico (0 : ℝ) 1) ℝ where
  nextUnit u := (u.1, u)
  nextIndex _ u := (0, u)

theorem RandomSource.half_mem : (0.5 : ℝ) ∈ Set.Ico (0 : ℝ) 1 := by norm_num

/-- The middle of the unit interval. -/
noncomputable def RandomSource.half : Set.Ico (0 : ℝ) 1 := ⟨0.5, half_mem⟩

/-- Whole numbers, which are read and written by their digits. -/
@[reducible] noncomputable def wholeNumerals : Numeral ℝ where
  read? cs := (Decimal.natural? cs).map Nat.cast
  text x := Nat.toDigits 10 ⌊x⌋₊

/-- A text that is one placeholder. -/
theorem Placeholder.cut_oneToThree :
    @Cut ℝ wholeNumerals "R[1,3]".toList [.plain [], .numbers "1,3".toList 1 3, .plain []] := by
  let _ : Numeral ℝ := wholeNumerals
  have hread {cs : List Char} {n : Nat} (h : Decimal.natural? cs = some n) :
      Numeral.read? cs = some (n : ℝ) := congrArg (Option.map Nat.cast) h
  have hone : Numeral.read? "1".toList = some (1 : ℝ) := by
    simpa using hread (n := 1) (by decide)
  have hthree : Numeral.read? "3".toList = some (3 : ℝ) := by
    simpa using hread (n := 3) (by decide)
  show Cut ([] ++ opened ("1,3".toList ++ ']' :: [])) _
  apply Cut.numbers
  · simp [Unopened, opened]
  · decide
  · exact ⟨_, _, rfl, by decide, by decide, hone, hthree⟩
  · exact .plain (by simp [Unopened, opened])

/-- An area without height. -/
def ScatterArea.flat : ScatterArea ℝ := ⟨⟨-1, 0, 0⟩, ⟨1, 0, 1⟩⟩

/-- A document with a flat scatter area. -/
def Document.flat : Document ℝ where
  start := ""
  engine := .default
  rules := []
  links := []
  prefabs := []
  space := none
  scatter := some .flat
  repetitions := 1
  seed := none

/-- Half of the way from one to three and from three to one, in a placeholder, and
to a point of a flat area. -/
theorem RandomSource.draws_obey_iff_half :
    (∀ u : Set.Ico (0 : ℝ) 1, (nextUnit u).1 ∈ Set.Ico (0 : ℝ) 1) ∧
      Scalar.Obeys 1 3 (nextBetween 1 3 half).1 ∧
      (1 < (nextBetween 3 1 half).1 ∧ (nextBetween (3 : ℝ) 1 half).1 ≤ 3) ∧
      (∃ x, (@Placeholder.resolve ℝ _ _ wholeNumerals _ "R[1,3]".toList half).1.text =
        wholeNumerals.text x ∧ Scalar.Obeys 1 3 x) ∧
      Document.flat.check = .ok () ∧
      List.Forall₂ (fun b x => Scalar.Obeys b.1 b.2 x) [(-1, -1 + 1), (0, 0 + 0), (0, 0 + 1)]
        (ScatterArea.flat.sample half).1.toList := by
  have hunit : ∀ u : Set.Ico (0 : ℝ) 1, (nextUnit u).1 ∈ Set.Ico (0 : ℝ) 1 := fun u => u.2
  have hcheck : Document.flat.check = .ok () := by
    apply Document.check_eq_ok_iff.mpr
    constructor <;> simp [Document.flat, ScatterArea.flat, Vec3.hasNegative, Vec3.toList]
  obtain ⟨hrange, hplaceholder, -, hdocument⟩ := draws_obey_iff hunit
  refine ⟨hunit, (hrange 1 3 half).1.mpr (.inl (by norm_num)), (hrange 3 1 half).2 (by norm_num),
    ?_, hcheck, hdocument Document.flat _ half hcheck rfl⟩
  let _ : Numeral ℝ := wholeNumerals
  obtain ⟨pieces, numbers, hcut, htext, hnumbers⟩ := hplaceholder "R[1,3]".toList half
  obtain rfl := hcut.unique Placeholder.cut_oneToThree
  obtain ⟨x, rfl, hbetween⟩ : ∃ x, numbers = [x] ∧ Scalar.Between 1 3 x := by
    cases hnumbers with
    | cons hx hrest =>
      cases hrest
      exact ⟨_, rfl, hx⟩
  refine ⟨x, ?_, hbetween.obeys_iff.mpr (.inl (by norm_num))⟩
  rw [htext]
  simp [Placeholder.fill, Placeholder.Piece.written]

/-- **Bounds in reverse are not obeyed**: half of the way from three down to one is two, be it drawn
as a number or put in the place of a placeholder. -/
theorem RandomSource.not_obeys_reversed :
    ¬ Scalar.Obeys 3 1 (nextBetween 3 1 half).1 ∧
      (Placeholder.resolve "R[3,1]".toList (⟨#[0.5], 0⟩ : Replay)).1 = ⟨"2".toList, []⟩ := by
  constructor
  · intro h
    have hthree := h.2 (by norm_num)
    rw [nextBetween_real] at hthree
    norm_num [nextUnit, half] at hthree
  · decide +kernel

end SpatialGrammar
