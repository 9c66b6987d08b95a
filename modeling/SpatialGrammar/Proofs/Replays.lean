/-
SpatialGrammar/Proofs/Replays.lean

When replays of a document are found to agree.

Two replays from one seed are the same computation, so they come out the same.  They are
compared by their footprints, though, and points are compared there as numbers are: the
number that is no number differs from itself.  A footprint agrees with itself, then, if
and only if every live entity stands at a point whose coordinates are numbers, and where one
does not, the second replay is reported to diverge from the first.

A list, a pair and a point are each compared member by member, so each of them agrees with
itself just if its members do.
-/
import SpatialGrammar.Command.Response
import SpatialGrammar.Proofs.Binary32Order

namespace SpatialGrammar

/-! ### What agrees with itself -/

/-- Every coordinate is a number. -/
def Vec3.Numeric (v : Vec3 Float32) : Prop := ∀ c ∈ v.toList, c.isNaN = false

instance (v : Vec3 Float32) : Decidable v.Numeric :=
  inferInstanceAs (Decidable (∀ c ∈ v.toList, c.isNaN = false))

theorem Vec3.beq_self_iff (v : Vec3 Float32) : (v == v) = true ↔ v.Numeric := by
  have hbeq : (v == v) = (v.x == v.x && (v.y == v.y && v.z == v.z)) := rfl
  simp [hbeq, Numeric, toList]

/-- A vector that nothing is known of counts as the origin, which agrees with itself. -/
theorem Vec3.getD_beq_self_iff (v : Option (Vec3 Float32)) :
    (v.getD .zero == v.getD .zero) = true ↔ ∀ u ∈ v, u.Numeric := by
  cases v with
  | none => simpa using (beq_self_iff .zero).mpr (by decide)
  | some u => simpa using beq_self_iff u

/-- A list agrees with itself if its members do. -/
theorem beq_self_iff_forall_mem {β : Type} [BEq β] (l : List β) :
    (l == l) = true ↔ ∀ b ∈ l, (b == b) = true := by
  induction l with
  | nil => simp
  | cons b l ih => simp [List.cons_beq_cons, ih]

/-- Every live entity stands at a point whose coordinates are numbers. -/
def Scene.Placed (s : Scene Float32) : Prop :=
  ∀ p ∈ s.live, ∀ at_ ∈ s.world? p.1, at_.position.Numeric

instance (s : Scene Float32) : Decidable s.Placed :=
  inferInstanceAs (Decidable (∀ p ∈ s.live, ∀ at_ ∈ s.world? p.1, at_.position.Numeric))

/-- **A footprint agrees with itself if and only if every point in it does.** -/
theorem Footprint.beq_self_iff (outcomes : List RunOutcome) (s : Scene Float32) :
    (Footprint.of outcomes s == Footprint.of outcomes s) = true ↔ s.Placed := by
  have hfields : ∀ f : Footprint, (f == f) = (f.runs == f.runs && f.entities == f.entities) :=
    fun _ => rfl
  have hentity : ∀ p : EntityId × Entity Float32,
      let point := ((s.world? p.1).map Transform.position).getD .zero
      ((p.2.name, point) == (p.2.name, point)) = true ↔
        ∀ at_ ∈ s.world? p.1, at_.position.Numeric := by
    intro p point
    have hpair : ((p.2.name, point) == (p.2.name, point)) =
        (p.2.name == p.2.name && point == point) := rfl
    rw [hpair, beq_self_eq_true, Bool.true_and, Vec3.getD_beq_self_iff]
    simp
  have hruns : ∀ r : String ⊕ String, (r == r) = true := by
    intro r
    cases r with
    | inl digest => exact beq_self_eq_true digest
    | inr message => exact beq_self_eq_true message
  rw [hfields, (beq_self_iff_forall_mem _).mpr fun r _ => hruns r, Bool.true_and,
    beq_self_iff_forall_mem]
  simp only [Footprint.of, List.forall_mem_map]
  exact forall₂_congr fun p _ => hentity p

/-! ### What is reported of replays -/

/-- The report that replays agree. -/
def Footprint.agreement (f : Footprint) (runs seed : Nat) : Response :=
  .success ["ok: " ++ Decimal.natText runs ++ " runs agree (seed " ++ Decimal.natText seed ++
    ", digest " ++ Command.digestLabel f ++ ")"]

/-- The report that a replay differs from the first one. -/
def Response.divergence (attempt seed : Nat) : Response :=
  .failure [] ("run " ++ Decimal.natText attempt ++ " diverged from run 0 (seed " ++
    Decimal.natText seed ++ ")")

namespace Command

variable {w : Surroundings} {d : Document Float32} {seed : Nat}
  {outcomes : List RunOutcome} {scene : Scene Float32}

/-- Replays that agree with themselves are never found to differ. -/
theorem firstDivergence?_of_placed (hreplay : d.replay? w.fuel seed = some (outcomes, scene))
    (hplaced : scene.Placed) (left attempt : Nat) :
    firstDivergence? w d seed (.of outcomes scene) left attempt = some none := by
  induction left generalizing attempt with
  | zero => rfl
  | succ left ih =>
    simp only [firstDivergence?, hreplay]
    rw [if_pos ((Footprint.beq_self_iff outcomes scene).mpr hplaced), ih]

/-- A replay that does not agree with itself is the first that differs. -/
theorem firstDivergence?_of_not_placed (hreplay : d.replay? w.fuel seed = some (outcomes, scene))
    (hplaced : ¬ scene.Placed) (left attempt : Nat) :
    firstDivergence? w d seed (.of outcomes scene) (left + 1) attempt = some (some attempt) := by
  simp only [firstDivergence?, hreplay]
  rw [if_neg (mt (Footprint.beq_self_iff outcomes scene).mp hplaced)]

end Command

section Torture

variable {w : Surroundings} {args : List String} {name text : String} {runs : Nat}
  {given : Option Nat} {d : Document Float32} {outcomes : List RunOutcome} {scene : Scene Float32}

/-- What replays of a document that is accepted come to. -/
theorem Response.toArguments?_torture
    (hargs : Command.Request.ofArguments args = .command (.torture name runs given))
    (hruns : 1 ≤ runs) (hfile : w.file? name = some text) (hread : Document.read text = .ok d)
    (hreplay : d.replay? w.fuel (Command.seedOf w given d) = some (outcomes, scene)) :
    toArguments? w args = some
      (if runs = 1 ∨ scene.Placed then
        (Footprint.of outcomes scene).agreement runs (Command.seedOf w given d)
      else divergence 1 (Command.seedOf w given d)) := by
  have hload : Command.load? w name = some d := by
    rw [Command.load?, hfile, Option.bind_some, hread]
    rfl
  obtain ⟨left, rfl⟩ : ∃ left, runs = left + 1 := ⟨runs - 1, by omega⟩
  simp only [toArguments?, hargs, Command.respond?, Command.respondTorture?, hload, hreplay]
  rw [if_neg (Nat.succ_ne_zero left), Nat.add_sub_cancel]
  by_cases hplaced : scene.Placed
  · rw [Command.firstDivergence?_of_placed hreplay hplaced, if_pos (.inr hplaced)]
    rfl
  · cases left with
    | zero => rfl
    | succ left =>
      rw [Command.firstDivergence?_of_not_placed hreplay hplaced, if_neg (by simp [hplaced])]
      rfl

/-- **Replays of a document are reported to agree if and only if there is but one, or every live
entity stands at a point whose coordinates are numbers.** -/
theorem Response.torture_agrees_iff
    (hargs : Command.Request.ofArguments args = .command (.torture name runs given))
    (hruns : 1 ≤ runs) (hfile : w.file? name = some text) (hread : Document.read text = .ok d)
    (hreplay : d.replay? w.fuel (Command.seedOf w given d) = some (outcomes, scene)) :
    toArguments? w args =
        some ((Footprint.of outcomes scene).agreement runs (Command.seedOf w given d)) ↔
      runs = 1 ∨ scene.Placed := by
  rw [toArguments?_torture hargs hruns hfile hread hreplay]
  split
  next h => exact iff_of_true rfl h
  next h =>
    refine iff_of_false (fun hequal => ?_) h
    -- the two reports differ in the exit code
    have hexit : (1 : Nat) = 0 := congrArg Response.exit (Option.some.inj hequal)
    exact absurd hexit Nat.one_ne_zero

end Torture

/-- Surroundings in which every file has the same text. -/
def Surroundings.holding (text : String) : Surroundings := ⟨fun _ => some text, 0, 8⟩

/-- Whether everything in a replay of the document with the given text stands at a point. -/
def Document.placed? (text : String) (fuel seed : Nat) : Option Bool :=
  match Document.read text with
  | .ok d => (d.replay? fuel seed).map fun replay => decide replay.2.Placed
  | .error _ => none

theorem Document.exists_of_placed? {text : String} {fuel seed : Nat} {placed : Bool}
    (h : placed? text fuel seed = some placed) :
    ∃ d outcomes scene, Document.read text = .ok d ∧
      d.replay? fuel seed = some (outcomes, scene) ∧ (scene.Placed ↔ placed = true) := by
  unfold placed? at h
  split at h
  next d hread =>
    obtain ⟨⟨outcomes, scene⟩, hreplay, rfl⟩ := Option.map_eq_some_iff.mp h
    exact ⟨d, outcomes, scene, hread, hreplay, decide_eq_true_iff.symm⟩
  next => cases h

/-- Two replays that make one entity and put it at a point. -/
theorem Response.torture_agrees_point :
    ∃ f : Footprint, toArguments? (.holding "\x7b\"start\":\"<o A><m SetPos(1,2,3)>\"\x7d")
      ["torture", "doc.json", "--seed", "1", "--runs", "2"] = some (f.agreement 2 1) := by
  have hargs : Command.Request.ofArguments ["torture", "doc.json", "--seed", "1", "--runs", "2"] =
      .command (.torture "doc.json" 2 (some 1)) := by
    decide +kernel
  have hplaced : Document.placed? "\x7b\"start\":\"<o A><m SetPos(1,2,3)>\"\x7d" 8 1 =
      some true := by
    decide +kernel
  obtain ⟨d, outcomes, scene, hread, hreplay, hscene⟩ := Document.exists_of_placed? hplaced
  exact ⟨.of outcomes scene, (torture_agrees_iff (w := .holding _) hargs (by decide) rfl hread
    hreplay).mpr (.inr (hscene.mpr rfl))⟩

/-- Two replays that make one entity and put it where no number is. -/
theorem Response.torture_diverges_nan :
    toArguments? (.holding "\x7b\"start\":\"<o A><m SetPos(nan,0,0)>\"\x7d")
      ["torture", "doc.json", "--seed", "1", "--runs", "2"] = some (divergence 1 1) := by
  have hargs : Command.Request.ofArguments ["torture", "doc.json", "--seed", "1", "--runs", "2"] =
      .command (.torture "doc.json" 2 (some 1)) := by
    decide +kernel
  have hplaced : Document.placed? "\x7b\"start\":\"<o A><m SetPos(nan,0,0)>\"\x7d" 8 1 =
      some false := by
    decide +kernel
  obtain ⟨d, outcomes, scene, hread, hreplay, hscene⟩ := Document.exists_of_placed? hplaced
  have hreport := toArguments?_torture (w := .holding _) hargs (by decide) rfl hread hreplay
  rw [hreport, if_neg (by simp [hscene])]
  rfl

end SpatialGrammar
