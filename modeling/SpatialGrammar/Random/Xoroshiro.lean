/-
SpatialGrammar/Random/Xoroshiro.lean

The generator xoroshiro128+, seeded by SplitMix64.

The state is a pair of words that is never zero in both.  `below` draws a word
evenly from the numbers under a bound by drawing again while the word lies in the
incomplete last round of multiples of the bound.
-/
import SpatialGrammar.Numeric.Binary32
import SpatialGrammar.Random.Source

namespace SpatialGrammar

/-- The state of the generator. -/
structure Xoroshiro where
  s0 : UInt64
  s1 : UInt64
  deriving DecidableEq, Repr

/-- Why a draw below a bound is refused. -/
inductive Xoroshiro.DrawError where
  /-- No number lies below zero. -/
  | zeroBound
  deriving DecidableEq, Repr

/-- The wording of a refused draw. -/
def Xoroshiro.DrawError.message : Xoroshiro.DrawError → String
  | .zeroBound => "next_below requires a non-zero bound"

namespace Xoroshiro

/-- The word rotated toward its high end by `k` places. -/
def rotateLeft (x k : UInt64) : UInt64 := (x <<< k) ||| (x >>> (64 - k))

/-- The odd constant nearest to the golden section of `2 ^ 64`. -/
def golden : UInt64 := 0x9e3779b97f4a7c15

/-- The state with the given words; two zeros are replaced by a fixed state. -/
def ofWords (a b : UInt64) : Xoroshiro := if a = 0 ∧ b = 0 then ⟨golden, 0⟩ else ⟨a, b⟩

/-- The mixing of a word by which seeds are spread. -/
def mix (z : UInt64) : UInt64 :=
  let z := (z ^^^ (z >>> 30)) * 0xbf58476d1ce4e5b9
  let z := (z ^^^ (z >>> 27)) * 0x94d049bb133111eb
  z ^^^ (z >>> 31)

/-- The state for a seed: the mixed words one and two golden steps after it. -/
def ofSeed (seed : UInt64) : Xoroshiro :=
  ofWords (mix (seed + golden)) (mix (seed + golden + golden))

/-- The state after one step. -/
def step (s : Xoroshiro) : Xoroshiro :=
  let x := s.s1 ^^^ s.s0
  ⟨rotateLeft s.s0 55 ^^^ x ^^^ (x <<< 14), rotateLeft x 36⟩

/-- The next word and the state after it. -/
def next (s : Xoroshiro) : UInt64 × Xoroshiro := (s.s0 + s.s1, s.step)

/-- The next number of the unit interval: the 23 high bits of a word as a fraction. -/
def nextUnit (s : Xoroshiro) : Float32 × Xoroshiro :=
  let (word, s) := s.next
  (Float32.ofBits ((word >>> 41).toUInt32 ||| 0x3f800000) - 1, s)

/-- Draws words until one is accepted, or until `fuel` words were refused. -/
def firstAccepted (accept : UInt64 → Bool) : Nat → Xoroshiro → Option (UInt64 × Xoroshiro)
  | 0, _ => none
  | fuel + 1, s =>
    let (word, s) := s.next
    if accept word then some (word, s) else firstAccepted accept fuel s

/-- The number of states: a stream that refuses this many words in a row refuses for ever. -/
def stateCount : Nat := Nat.pow 2 128

/-- The words that `below` accepts: those under the greatest multiple of the bound that fits. -/
def zone (bound : UInt64) : UInt64 := 0xffffffffffffffff - 0xffffffffffffffff % bound

/-- Draws a word below a bound.  A power of two keeps the low bits of one word; any other bound
takes the remainder of the first word in its zone. -/
def below (bound : UInt64) (s : Xoroshiro) : Except DrawError (UInt64 × Xoroshiro) :=
  if bound = 0 then .error .zeroBound
  else if bound &&& (bound - 1) = 0 then
    let (word, s) := s.next
    .ok (word &&& (bound - 1), s)
  else
    match firstAccepted (· < zone bound) stateCount s with
    | some (word, s) => .ok (word % bound, s)
    | none => .ok (0, s)

instance : RandomSource Xoroshiro Float32 where
  nextUnit := nextUnit
  nextIndex bound s :=
    match s.below (UInt64.ofNat bound) with
    | .ok (word, s) => (word.toNat, s)
    | .error _ => (0, s)

end Xoroshiro

end SpatialGrammar
