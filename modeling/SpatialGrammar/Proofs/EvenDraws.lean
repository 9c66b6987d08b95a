/-
SpatialGrammar/Proofs/EvenDraws.lean

Words that are drawn below a bound are drawn evenly.

A draw takes the first word it accepts (`Xoroshiro.Accepts`) and refuses those before it.  It never
refuses for ever: the stream comes to every state but zero (`Xoroshiro.exists_iterate_step_eq`), and
the word of one of them is accepted (`Xoroshiro.exists_accepts`).  So the bound on the number of
words in `Xoroshiro.firstAccepted` is never met.

The accepted words are those below a multiple of the bound (`Xoroshiro.accepts_iff`), be it all
words or those in the zone, and among the numbers below a multiple each remainder is as frequent
as every other.
-/
import Mathlib.Data.Int.CardIntervalMod
import Mathlib.Data.Set.Card
import SpatialGrammar.Proofs.IndexDraws
import SpatialGrammar.Proofs.Streams

namespace SpatialGrammar

namespace Xoroshiro

/-! ### The words of a stream -/

/-- The word that comes after the given number of words. -/
def wordAt (n : Nat) (s : Xoroshiro) : UInt64 := (after n s).next.1

/-- The words that are drawn for a number below the bound: all of them for a power of two, and those
in the zone for any other bound. -/
def Accepts (bound word : UInt64) : Prop := bound.toNat.isPowerOfTwo ∨ word < zone bound

/-- The first word that is accepted is drawn, and the words before it are gone. -/
theorem firstAccepted_eq {accept : UInt64 → Bool} {n fuel : Nat} {s : Xoroshiro} (hfuel : n < fuel)
    (haccept : accept (wordAt n s)) (hrefuse : ∀ i < n, ¬ accept (wordAt i s)) :
    firstAccepted accept fuel s = some (wordAt n s, after (n + 1) s) := by
  induction n generalizing fuel s with
  | zero =>
    obtain ⟨fuel, rfl⟩ := Nat.exists_eq_add_of_lt hfuel
    rw [Nat.zero_add]
    exact if_pos haccept
  | succ n ih =>
    obtain ⟨fuel, rfl⟩ := Nat.exists_eq_add_of_lt (Nat.zero_lt_of_lt hfuel)
    rw [Nat.zero_add] at hfuel ⊢
    calc firstAccepted accept (fuel + 1) s
        = firstAccepted accept fuel s.next.2 := if_neg (hrefuse 0 (Nat.succ_pos n))
      _ = some (wordAt n s.next.2, after (n + 1) s.next.2) :=
        ih (Nat.lt_of_succ_lt_succ hfuel) haccept
          fun i hi => hrefuse (i + 1) (Nat.succ_lt_succ hi)

/-! ### The words that are accepted -/

variable {bound : UInt64}

/-- A bound that shares no bit with the number before it is a power of two. -/
theorem and_sub_one_eq_zero_iff (hbound : bound ≠ 0) :
    bound &&& (bound - 1) = 0 ↔ bound.toNat.isPowerOfTwo := by
  rw [← UInt64.toNat_inj, UInt64.toNat_and, toNat_sub_one hbound]
  exact Nat.and_sub_one_eq_zero_iff_isPowerOfTwo (toNat_pos hbound).ne'

/-- The low bits of a word are its remainder by a power of two. -/
theorem and_sub_one_eq_mod (hbound : bound ≠ 0) (hpower : bound.toNat.isPowerOfTwo)
    (word : UInt64) : word &&& (bound - 1) = word % bound := by
  obtain ⟨k, hk⟩ := hpower
  apply UInt64.toNat_inj.mp
  rw [UInt64.toNat_and, toNat_sub_one hbound, UInt64.toNat_mod, hk]
  exact Nat.and_two_pow_sub_one_eq_mod word.toNat k

/-- The greatest multiple of the bound that is a word. -/
theorem toNat_zone (bound : UInt64) :
    (zone bound).toNat = 2 ^ 64 - 1 - (2 ^ 64 - 1) % bound.toNat := by
  have hle : (0xffffffffffffffff : UInt64) % bound ≤ 0xffffffffffffffff := by
    rw [UInt64.le_iff_toNat_le, UInt64.toNat_mod]
    exact Nat.mod_le _ _
  exact UInt64.toNat_sub_of_le _ _ hle

/-- How many words are accepted. -/
noncomputable def acceptedCount (bound : UInt64) : Nat :=
  open Classical in if bound.toNat.isPowerOfTwo then 2 ^ 64 else (zone bound).toNat

theorem acceptedCount_of_power (hpower : bound.toNat.isPowerOfTwo) :
    acceptedCount bound = 2 ^ 64 := if_pos hpower

theorem acceptedCount_of_not_power (hpower : ¬ bound.toNat.isPowerOfTwo) :
    acceptedCount bound = (zone bound).toNat := if_neg hpower

theorem acceptedCount_le (bound : UInt64) : acceptedCount bound ≤ 2 ^ 64 := by
  unfold acceptedCount
  split
  · exact le_rfl
  · exact (zone bound).toNat_lt.le

theorem accepts_iff {word : UInt64} : Accepts bound word ↔ word.toNat < acceptedCount bound := by
  unfold Accepts acceptedCount
  split
  · next hpower => exact iff_of_true (.inl hpower) word.toNat_lt
  · next hpower =>
    rw [or_iff_right hpower]
    exact UInt64.lt_iff_toNat_lt

theorem dvd_acceptedCount (bound : UInt64) : bound.toNat ∣ acceptedCount bound := by
  unfold acceptedCount
  split
  · next hpower =>
    obtain ⟨k, hk⟩ := hpower
    rw [hk]
    apply Nat.pow_dvd_pow
    exact ((Nat.pow_lt_pow_iff_right Nat.one_lt_two).mp (hk ▸ bound.toNat_lt)).le
  · rw [toNat_zone bound]
    exact Nat.dvd_sub_mod _

/-- More than every other word is accepted. -/
theorem lt_acceptedCount (hbound : bound ≠ 0) : 2 ^ 63 < acceptedCount bound := by
  unfold acceptedCount
  split
  · exact Nat.pow_lt_pow_right Nat.one_lt_two (by decide)
  · next hpower =>
    rw [toNat_zone bound]
    have hrest : (2 ^ 64 - 1) % bound.toNat < bound.toNat := Nat.mod_lt _ (toNat_pos hbound)
    have hhalf : bound.toNat ≠ 2 ^ 63 := fun h => hpower ⟨63, h⟩
    rcases Nat.lt_or_ge bound.toNat (2 ^ 63) with h | h
    · omega
    · -- a bound in the upper half goes once into the greatest word
      have hlt := bound.toNat_lt
      have honce : (2 ^ 64 - 1) % bound.toNat = 2 ^ 64 - 1 - bound.toNat := by
        rw [Nat.mod_eq_sub_mod (by omega), Nat.mod_eq_of_lt (by omega)]
      omega

/-! ### The draw -/

/-- **No stream refuses for ever.** -/
theorem exists_accepts (hbound : bound ≠ 0) (s : Xoroshiro) :
    ∃ n < stateCount, Accepts bound (wordAt n s) := by
  have hhalf := lt_acceptedCount hbound
  by_cases hs : s = 0
  · subst hs
    exact ⟨0, by decide, accepts_iff.mpr (Nat.zero_lt_of_lt hhalf)⟩
  · obtain ⟨n, hn, hbase⟩ := exists_iterate_step_eq hs (t := base) (by decide)
    refine ⟨n, hn.trans (by decide), accepts_iff.mpr ?_⟩
    unfold wordAt
    rw [after_eq, hbase]
    exact Nat.lt_trans (by decide) hhalf

theorem exists_first_accepts (hbound : bound ≠ 0) (s : Xoroshiro) :
    ∃ n < stateCount, Accepts bound (wordAt n s) ∧ ∀ i < n, ¬ Accepts bound (wordAt i s) := by
  classical
  have hexists := exists_accepts hbound s
  obtain ⟨hlt, haccept⟩ := Nat.find_spec hexists
  refine ⟨Nat.find hexists, hlt, haccept, fun i hi h => ?_⟩
  exact Nat.find_min hexists hi ⟨hi.trans hlt, h⟩

/-- The remainder of the first word that is accepted is drawn, and the words before it are gone. -/
theorem below_eq (hbound : bound ≠ 0) {n : Nat} {s : Xoroshiro} (hn : n < stateCount)
    (haccept : Accepts bound (wordAt n s)) (hrefuse : ∀ i < n, ¬ Accepts bound (wordAt i s)) :
    s.below bound = .ok (wordAt n s % bound, after (n + 1) s) := by
  unfold below
  rw [if_neg hbound]
  by_cases hpower : bound.toNat.isPowerOfTwo
  · rw [if_pos ((and_sub_one_eq_zero_iff hbound).mpr hpower)]
    -- nothing is refused, so the word is the first one
    obtain rfl : n = 0 := by
      by_contra hne
      exact hrefuse 0 (Nat.pos_of_ne_zero hne) (.inl hpower)
    show Except.ok (s.next.1 &&& (bound - 1), s.next.2) = .ok (s.next.1 % bound, s.next.2)
    rw [and_sub_one_eq_mod hbound hpower]
  · rw [if_neg (mt (and_sub_one_eq_zero_iff hbound).mp hpower)]
    have hfirst :
        firstAccepted (· < zone bound) stateCount s = some (wordAt n s, after (n + 1) s) := by
      apply firstAccepted_eq hn
      · exact decide_eq_true (haccept.resolve_left hpower)
      · exact fun i hi h => hrefuse i hi (.inr (of_decide_eq_true h))
    rw [hfirst]

/-! ### Frequencies -/

/-- Words are counted as numbers are. -/
theorem ncard_words {limit : Nat} (hlimit : limit ≤ 2 ^ 64) (P : Nat → Prop) [DecidablePred P] :
    {word : UInt64 | word.toNat < limit ∧ P word.toNat}.ncard = limit.count P := by
  have himage : UInt64.toNat '' {word : UInt64 | word.toNat < limit ∧ P word.toNat} =
      ((Finset.range limit).filter P : Finset Nat) := by
    ext n
    rw [Finset.mem_coe, Finset.mem_filter, Finset.mem_range]
    constructor
    · rintro ⟨word, h, rfl⟩
      exact h
    · intro h
      have hn : (UInt64.ofNat n).toNat = n := UInt64.toNat_ofNat_of_lt' (h.1.trans_le hlimit)
      refine ⟨.ofNat n, ?_, hn⟩
      show (UInt64.ofNat n).toNat < limit ∧ P (UInt64.ofNat n).toNat
      rwa [hn]
  rw [Nat.count_eq_card_filter_range, ← Set.ncard_coe_finset, ← himage]
  exact (Set.ncard_image_of_injective _ fun _ _ h => UInt64.toNat_inj.mp h).symm

/-- As many words are accepted as the count says. -/
theorem ncard_accepts (bound : UInt64) :
    {word : UInt64 | Accepts bound word}.ncard = acceptedCount bound := by
  have hset : {word : UInt64 | Accepts bound word} =
      {word | word.toNat < acceptedCount bound ∧ True} :=
    Set.ext fun word => accepts_iff.trans (and_iff_left trivial).symm
  rw [hset, ncard_words (acceptedCount_le bound) fun _ => True, Nat.count_true]

/-- The count is a multiple of the bound, so each remainder is as frequent as every other. -/
theorem ncard_accepts_mod (hbound : bound ≠ 0) {residue : UInt64} (hresidue : residue < bound) :
    {word : UInt64 | Accepts bound word ∧ word % bound = residue}.ncard =
      acceptedCount bound / bound.toNat := by
  have hmod (word : UInt64) :
      word % bound = residue ↔ word.toNat ≡ residue.toNat [MOD bound.toNat] := by
    unfold Nat.ModEq
    rw [← UInt64.toNat_inj, UInt64.toNat_mod,
      Nat.mod_eq_of_lt (UInt64.lt_iff_toNat_lt.mp hresidue)]
  have hset : {word : UInt64 | Accepts bound word ∧ word % bound = residue} =
      {word | word.toNat < acceptedCount bound ∧ word.toNat ≡ residue.toNat [MOD bound.toNat]} :=
    Set.ext fun word => and_congr accepts_iff (hmod word)
  rw [hset, ncard_words (acceptedCount_le bound) (· ≡ residue.toNat [MOD bound.toNat]),
    Nat.count_modEq_card _ (toNat_pos hbound), Nat.mod_eq_zero_of_dvd (dvd_acceptedCount bound)]
  rfl

/-- **Draws below a bound are in range and even.**  What is drawn lies below the bound.  A draw
takes the remainder of the first word that is accepted, after which the stream goes on, and there is
such a word in every stream.  Each remainder belongs to as many of the accepted words as every
other, and more than half of the words are accepted. -/
theorem below_evenly (hbound : bound ≠ 0) :
    (∀ (s s' : Xoroshiro) (word : UInt64), s.below bound = .ok (word, s') → word < bound) ∧
    (∀ s : Xoroshiro, ∃ n, Accepts bound (wordAt n s) ∧ (∀ i < n, ¬ Accepts bound (wordAt i s)) ∧
      s.below bound = .ok (wordAt n s % bound, after (n + 1) s) ∧
      RandomSource.nextIndex bound.toNat s = ((wordAt n s % bound).toNat, after (n + 1) s)) ∧
    (∀ residue < bound,
      (bound.toNat.isPowerOfTwo →
        {word : UInt64 | Accepts bound word ∧ word % bound = residue}.ncard =
          2 ^ 64 / bound.toNat) ∧
      (¬ bound.toNat.isPowerOfTwo →
        {word : UInt64 | Accepts bound word ∧ word % bound = residue}.ncard =
          (zone bound).toNat / bound.toNat)) ∧
    2 ^ 63 < {word : UInt64 | Accepts bound word}.ncard := by
  refine ⟨?_, ?_, ?_, ?_⟩
  · intro s s' word h
    exact UInt64.lt_iff_toNat_lt.mpr (toNat_lt_of_below h)
  · intro s
    obtain ⟨n, hn, haccept, hrefuse⟩ := exists_first_accepts hbound s
    have hbelow := below_eq hbound hn haccept hrefuse
    refine ⟨n, haccept, hrefuse, hbelow, ?_⟩
    unfold RandomSource.nextIndex instRandomSourceFloat32
    dsimp only
    rw [UInt64.ofNat_toNat, hbelow]
  · intro residue hresidue
    rw [ncard_accepts_mod hbound hresidue]
    constructor
    · intro hpower
      rw [acceptedCount_of_power hpower]
    · intro hpower
      rw [acceptedCount_of_not_power hpower]
  · rw [ncard_accepts]
    exact lt_acceptedCount hbound

/-- A die: six goes into the zone evenly, and four words are refused. -/
theorem below_evenly_six :
    (6 : UInt64) ≠ 0 ∧
      (∀ s : Xoroshiro, ∃ n, s.below 6 = .ok (wordAt n s % 6, after (n + 1) s)) ∧
      ∀ residue < 6, {word : UInt64 | Accepts 6 word ∧ word % 6 = residue}.ncard =
        3074457345618258602 := by
  have hsix : (6 : UInt64) ≠ 0 := by decide
  obtain ⟨-, hdraw, hcount, -⟩ := below_evenly hsix
  refine ⟨hsix, ?_, ?_⟩
  · intro s
    obtain ⟨n, -, -, hbelow, -⟩ := hdraw s
    exact ⟨n, hbelow⟩
  · intro residue hresidue
    apply (hcount residue hresidue).2
    rw [← and_sub_one_eq_zero_iff hsix]
    decide

end Xoroshiro

end SpatialGrammar
