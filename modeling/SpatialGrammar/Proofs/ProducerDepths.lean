/-
SpatialGrammar/Proofs/ProducerDepths.lean

Which producer `SetParent` hangs an entity below.

The arguments ask for a producer by its place among the producers, of which the nearest is the
first (`Method.Asks`), and the program goes up to that place, but not beyond the last producer
(`Method.Reaches`).  So it hangs an entity below the producer that is asked for, and below no other
(`Scene.Obeyed`), if there are so many producers; if there are fewer, the last one stands in for the
one that is missing (`Scene.Forest.obeyed_iff`).
-/
import SpatialGrammar.Proofs.MethodEffects

namespace SpatialGrammar

variable {α : Type}

/-! ### Asking for a producer -/

/-- How many producers up a depth leads where there are `count` of them. -/
def Arguments.Depth.among (count : Nat) : Depth → Nat
  | levels n => n
  | root => count

namespace Method

variable {call : MethodCall} {keepWorld keepWorld' : Bool} {count n n' : Nat}
  {rest : List (List Char)}

/-- The place among `count` producers that the parts behind the flag mean. -/
inductive Leads (count : Nat) : List (List Char) → Nat → Prop where
  /-- Without a depth it is the first one. -/
  | nearest : Leads count [] 1
  | levels {part : List Char} {rest : List (List Char)} {n : Nat}
      (h : Arguments.depth? part = some (.levels n)) : Leads count (part :: rest) n
  /-- The root is the last one. -/
  | root {part : List Char} {rest : List (List Char)}
      (h : Arguments.depth? part = some .root) : Leads count (part :: rest) count

/-- The call asks for the `n`-th of its producers, and whether to keep the pose in the world. -/
def Asks (call : MethodCall) (keepWorld : Bool) (n : Nat) : Prop :=
  ∃ keep rest, Arguments.split call.args.toList = keep :: rest ∧
    (keepWorld = true ↔ Text.trim keep ∈ [['t'], ['T'], ['1']]) ∧ Leads call.lineage.length rest n

/-- The producer that the call asks for has an entity. -/
def Names (call : MethodCall) (keepWorld : Bool) (parent : EntityId) : Prop :=
  ∃ n, Asks call keepWorld (n + 1) ∧ call.lineage[n]? = some (some parent)

/-- The producer at the end of a walk, which goes up as far as the call asks or to the last
producer, has an entity. -/
def Reaches (call : MethodCall) (keepWorld : Bool) (parent : EntityId) : Prop :=
  ∃ n m, Asks call keepWorld n ∧ min n call.lineage.length = m + 1 ∧
    call.lineage[m]? = some (some parent)

/-- The depth is read just where it leads somewhere. -/
theorem leads_iff :
    Leads count rest n ↔ ∃ depth, depthArgument? rest = some depth ∧ depth.among count = n := by
  constructor
  · intro h
    cases h with
    | nearest => exact ⟨.levels 1, rfl, rfl⟩
    | levels h => exact ⟨_, h, rfl⟩
    | root h => exact ⟨_, h, rfl⟩
  · rintro ⟨depth, hdepth, rfl⟩
    cases rest with
    | nil =>
      obtain rfl := Option.some.inj hdepth
      exact .nearest
    | cons part rest =>
      cases depth with
      | levels k => exact .levels hdepth
      | root => exact .root hdepth

theorem Leads.unique (h : Leads count rest n) (h' : Leads count rest n') : n = n' := by
  obtain ⟨depth, hdepth, rfl⟩ := leads_iff.mp h
  obtain ⟨depth', hdepth', rfl⟩ := leads_iff.mp h'
  rw [hdepth] at hdepth'
  cases hdepth'
  rfl

/-- No call asks for two things. -/
theorem Asks.unique (h : Asks call keepWorld n) (h' : Asks call keepWorld' n') :
    keepWorld = keepWorld' ∧ n = n' := by
  obtain ⟨keep, rest, hsplit, hkeep, hleads⟩ := h
  obtain ⟨_, _, hsplit', hkeep', hleads'⟩ := h'
  rw [hsplit] at hsplit'
  obtain ⟨rfl, rfl⟩ := List.cons.inj hsplit'
  exact ⟨Bool.eq_iff_iff.mpr (hkeep.trans hkeep'.symm), hleads.unique hleads'⟩

/-- Beyond the last producer there is none. -/
theorem Asks.not_names (h : Asks call keepWorld n) (hbeyond : call.lineage.length < n)
    {parent : EntityId} : ¬ Names call keepWorld' parent := by
  rintro ⟨m, h', hparent⟩
  obtain ⟨-, rfl⟩ := h.unique h'
  have hlt : m < call.lineage.length := (List.getElem?_eq_some_iff.mp hparent).1
  exact Nat.not_lt.mpr (Nat.le_of_lt_succ hbeyond) hlt

/-- Where there are enough producers, the walk ends at the one that is asked for. -/
theorem Names.reaches {parent : EntityId} (h : Names call keepWorld parent) :
    Reaches call keepWorld parent := by
  obtain ⟨n, hasks, hparent⟩ := h
  have hlt : n < call.lineage.length := (List.getElem?_eq_some_iff.mp hparent).1
  exact ⟨n + 1, n, hasks, Nat.min_eq_left hlt, hparent⟩

/-- The producer at a depth is the one at the end of the walk. -/
theorem producerAt?_eq_some_iff {lineage : List (Option EntityId)} {depth : Arguments.Depth}
    {parent : EntityId} : producerAt? lineage depth = some parent ↔
      ∃ m, min (depth.among lineage.length) lineage.length = m + 1 ∧
        lineage[m]? = some (some parent) := by
  have hlevels (k : Nat) : producerAt? lineage (.levels k) = some parent ↔
      ∃ m, min k lineage.length = m + 1 ∧ lineage[m]? = some (some parent) := by
    unfold producerAt?
    dsimp only
    split
    · next hzero => simp [hzero]
    · next m hm => simp [hm, Option.join_eq_some_iff]
  -- up to the root means as many levels as there are producers
  have hroot : producerAt? lineage .root = producerAt? lineage (.levels lineage.length) := by
    simp only [producerAt?, Nat.min_self]
  cases depth with
  | levels k => exact hlevels k
  | root =>
    rw [hroot]
    exact hlevels lineage.length

theorem flag_iff {keep : List Char} :
    Arguments.flag keep = true ↔ Text.trim keep ∈ [['t'], ['T'], ['1']] := by
  simp [Arguments.flag, or_assoc]

variable [Scalar α]

/-- **`SetParent` reparents the entity to the producer that the walk reaches**, and does
nothing where it reaches none. -/
theorem runSetParent_eq (id : EntityId) (call : MethodCall) (s : Scene α) :
    (∀ keepWorld parent, Reaches call keepWorld parent →
      runSetParent id call s = (s.setParent id parent keepWorld).2) ∧
    ((∀ keepWorld parent, ¬ Reaches call keepWorld parent) → runSetParent id call s = s) := by
  unfold runSetParent
  split
  · next hsplit =>
    refine ⟨?_, fun _ => rfl⟩
    rintro _ _ ⟨_, _, ⟨_, _, hsplit', -⟩, -⟩
    rw [hsplit] at hsplit'
    cases hsplit'
  · next keep rest hsplit =>
    have hreached {parent : EntityId} :
        (depthArgument? rest).bind (producerAt? call.lineage) = some parent ↔
          Reaches call (Arguments.flag keep) parent := by
      simp only [Option.bind_eq_some_iff, producerAt?_eq_some_iff]
      constructor
      · rintro ⟨depth, hdepth, m, hend⟩
        exact ⟨_, m, ⟨keep, rest, hsplit, flag_iff, leads_iff.mpr ⟨depth, hdepth, rfl⟩⟩, hend⟩
      · rintro ⟨n, m, ⟨_, _, hsplit', -, hleads⟩, hend⟩
        rw [hsplit] at hsplit'
        obtain ⟨rfl, rfl⟩ := List.cons.inj hsplit'
        obtain ⟨depth, hdepth, rfl⟩ := leads_iff.mp hleads
        exact ⟨depth, hdepth, m, hend⟩
    constructor
    · rintro keepWorld parent ⟨n, m, ⟨_, tail, hsplit', hkeep, hleads⟩, hend⟩
      rw [hsplit] at hsplit'
      obtain ⟨rfl, rfl⟩ := List.cons.inj hsplit'
      obtain rfl : Arguments.flag keep = keepWorld :=
        Bool.eq_iff_iff.mpr (flag_iff.trans hkeep.symm)
      rw [hreached.mpr ⟨n, m, ⟨keep, rest, hsplit, hkeep, hleads⟩, hend⟩]
    · intro hnone
      have hstop : (depthArgument? rest).bind (producerAt? call.lineage) = none :=
        Option.eq_none_iff_forall_ne_some.mpr fun parent h => hnone _ parent (hreached.mp h)
      rw [hstop]

end Method

/-! ### Hanging the entity there -/

namespace Scene

variable [Scalar α] {s : Scene α} {id : EntityId} {call : MethodCall}

/-- In `t` the entity hangs below the producer that the call asks for, if it can be hung there; in
all other cases nothing has been done. -/
structure Obeyed (s : Scene α) (id : EntityId) (call : MethodCall) (t : Scene α) : Prop where
  hung : ∀ keepWorld parent, Method.Names call keepWorld parent → s.Admits id parent →
    Reparented s id parent keepWorld t
  idle : (∀ keepWorld parent, Method.Names call keepWorld parent → ¬ s.Admits id parent) → t = s

variable [Numeral α]

theorem dispatch_setParent (hlive : ∃ e, s.get? id = some e) (hname : call.name = "SetParent") :
    s.dispatch id call = (true, Method.runSetParent id call s) := by
  obtain ⟨e, he⟩ := hlive
  have hmethod : s.method? id call.name = some .setParent := by
    rw [method?, he, hname]
    cases hkind : e.kind <;> simp [hkind, Method.ofKind, Method.shared, Method.name]
  rw [dispatch, hmethod]
  rfl

/-- **The entity comes to hang below the producer that the walk reaches**, if it can be hung there,
and otherwise stays where it is. -/
theorem Forest.dispatch_reaches (hs : s.Forest) (hlive : ∃ e, s.get? id = some e)
    (hname : call.name = "SetParent") :
    (∀ keepWorld parent, Method.Reaches call keepWorld parent → s.Admits id parent →
      Reparented s id parent keepWorld (s.dispatch id call).2) ∧
    ((∀ keepWorld parent, Method.Reaches call keepWorld parent → ¬ s.Admits id parent) →
      (s.dispatch id call).2 = s) := by
  rw [dispatch_setParent hlive hname]
  obtain ⟨hreached, hnone⟩ := Method.runSetParent_eq id call s
  constructor
  · intro keepWorld parent hreaches hadmits
    rw [hreached keepWorld parent hreaches]
    exact hs.setParent_reparented ((hs.setParent_iff hlive parent keepWorld).mpr hadmits)
  · intro hnot
    by_cases hany : ∃ keepWorld parent, Method.Reaches call keepWorld parent
    · obtain ⟨keepWorld, parent, hreaches⟩ := hany
      rw [hreached keepWorld parent hreaches]
      apply (hs.setParent_refused id parent keepWorld).2
      rw [← Bool.not_eq_true, hs.setParent_iff hlive]
      exact hnot keepWorld parent hreaches
    · exact hnone fun keepWorld parent hreaches => hany ⟨keepWorld, parent, hreaches⟩

/-- **A call is obeyed unless it asks for a producer beyond the last one.**  Then nothing should be
done, but the last producer stands in for the one that is missing. -/
theorem Forest.obeyed_iff (hs : s.Forest) (hlive : ∃ e, s.get? id = some e)
    (hname : call.name = "SetParent") :
    (s.dispatch id call).1 = true ∧
    (Obeyed s id call (s.dispatch id call).2 ↔
      ∀ keepWorld n, Method.Asks call keepWorld n → call.lineage.length < n →
        (s.dispatch id call).2 = s) ∧
    ∀ keepWorld n parent, Method.Asks call keepWorld n → call.lineage.length < n →
      call.lineage.getLast? = some (some parent) → s.Admits id parent →
        Reparented s id parent keepWorld (s.dispatch id call).2 := by
  obtain ⟨hreached, hnone⟩ := hs.dispatch_reaches hlive hname
  refine ⟨by rw [dispatch_setParent hlive hname], ⟨?_, ?_⟩, ?_⟩
  · intro hobeyed keepWorld n hasks hbeyond
    exact hobeyed.idle fun _ _ hnames => absurd hnames (hasks.not_names hbeyond)
  · intro hbeyond
    refine ⟨fun keepWorld parent hnames => hreached keepWorld parent hnames.reaches, fun hnot => ?_⟩
    by_cases hfar : ∃ keepWorld n, Method.Asks call keepWorld n ∧ call.lineage.length < n
    · obtain ⟨keepWorld, n, hasks, hlt⟩ := hfar
      exact hbeyond keepWorld n hasks hlt
    · -- the walk does not go beyond the last producer, so what it reaches is asked for
      refine hnone fun keepWorld parent hreaches => hnot keepWorld parent ?_
      obtain ⟨n, m, hasks, hmin, hparent⟩ := hreaches
      have hle : n ≤ call.lineage.length :=
        Nat.le_of_not_lt fun hlt => hfar ⟨keepWorld, n, hasks, hlt⟩
      obtain rfl : n = m + 1 := by rw [← hmin, Nat.min_eq_left hle]
      exact ⟨m, hasks, hparent⟩
  · intro keepWorld n parent hasks hlt hlast hadmits
    refine hreached keepWorld parent ?_ hadmits
    rw [List.getLast?_eq_getElem?] at hlast
    have hlength : call.lineage.length - 1 < call.lineage.length :=
      (List.getElem?_eq_some_iff.mp hlast).1
    exact ⟨n, call.lineage.length - 1, hasks, by omega, hlast⟩

/-- A holder with two objects. -/
def twoObjects : Scene Float32 :=
  let begun := beginRun (.empty (.ofList []) (.ofList []) ⟨0, 0, 0⟩)
  let one := (begun.spawn ⟨"A", ""⟩ (⟨#[], 0⟩ : Replay)).2.1
  (one.spawn ⟨"B", ""⟩ (⟨#[], 0⟩ : Replay)).2.1

theorem twoObjects_live : twoObjects.Forest ∧ ∃ e, twoObjects.get? 2 = some e :=
  ⟨Reachable.forest (((Reachable.empty ..).beginRun.spawn ..).spawn ..),
    Option.isSome_iff_exists.mp (by decide +kernel)⟩

/-- Where a rule stands between two objects, the root is the second producer. -/
theorem obeyed_iff_twoObjects : twoObjects.Forest ∧ (∃ e, twoObjects.get? 2 = some e) ∧
    Method.Names ⟨"SetParent", " T,R", [none, some 1], none⟩ true 1 ∧
    Obeyed twoObjects 2 ⟨"SetParent", " T,R", [none, some 1], none⟩
      (twoObjects.dispatch 2 ⟨"SetParent", " T,R", [none, some 1], none⟩).2 ∧
    ((twoObjects.dispatch 2 ⟨"SetParent", " T,R", [none, some 1], none⟩).2.get? 2).map
      Entity.parent = some (some 1) := by
  obtain ⟨hforest, hlive⟩ := twoObjects_live
  have hasks : Method.Asks ⟨"SetParent", " T,R", [none, some 1], none⟩ true 2 :=
    ⟨[' ', 'T'], [['R']], by decide, by decide, .root (by decide)⟩
  refine ⟨hforest, hlive, ⟨1, hasks, rfl⟩, ?_, by decide +kernel⟩
  refine (hforest.obeyed_iff hlive rfl).2.1.mpr fun keepWorld n hasks' hbeyond => ?_
  obtain ⟨-, rfl⟩ := hasks.unique hasks'
  exact absurd hbeyond (by decide)

/-- The third producer is asked for where there is one only, and the
object is hung below that one. -/
theorem not_obeyed_twoObjects : twoObjects.Forest ∧ (∃ e, twoObjects.get? 2 = some e) ∧
    Method.Asks ⟨"SetParent", "F,3", [some 1], some 1⟩ false 3 ∧
    ((twoObjects.dispatch 2 ⟨"SetParent", "F,3", [some 1], some 1⟩).2.get? 2).map Entity.parent =
      some (some 1) ∧
    ¬ Obeyed twoObjects 2 ⟨"SetParent", "F,3", [some 1], some 1⟩
      (twoObjects.dispatch 2 ⟨"SetParent", "F,3", [some 1], some 1⟩).2 := by
  obtain ⟨hforest, hlive⟩ := twoObjects_live
  have hasks : Method.Asks ⟨"SetParent", "F,3", [some 1], some 1⟩ false 3 :=
    ⟨['F'], [['3']], by decide, by decide, .levels (by decide)⟩
  refine ⟨hforest, hlive, hasks, by decide +kernel, fun hobeyed => ?_⟩
  have hsame := hobeyed.idle fun _ _ hnames => absurd hnames (hasks.not_names (by decide))
  have hmoved : (twoObjects.dispatch 2 ⟨"SetParent", "F,3", [some 1], some 1⟩).2.get? 2 ≠
      twoObjects.get? 2 := by
    decide +kernel
  exact hmoved (by rw [hsame])

end Scene

end SpatialGrammar
