/-
SpatialGrammar/Proofs/PlaceholderReading.lean

How the placeholders of a text are found.

A text is cut from left to right: before the first place where a placeholder is opened, and
behind the first bracket that closes it there (`Placeholder.Cut`).  The pieces make up the text
again, and no text can be cut in two ways.  Of the pieces only those that hold two numbers are
replaced, each by the text of one number drawn between the two; the draws are made in the order
of the pieces, and all other pieces stay as they are (`Placeholder.Cut.resolve_eq`).

Nothing is left to be drawn when this has been done.  The text of a number is not empty and
has neither of the two characters that open a placeholder (`Placeholder.inert_text`), so none
is opened in it, and none is opened across it by what stands on its two sides
(`Placeholder.Cut.resolve_fill`).
-/
import SpatialGrammar.Decimal.Layout
import SpatialGrammar.Proofs.Numerals
import SpatialGrammar.Random.Replay
import SpatialGrammar.Symbol.Placeholder

namespace SpatialGrammar

/-! ### Parts between commas -/

namespace Text

theorem commaParts_of_notMem {cs : List Char} (h : ',' ∉ cs) : commaParts cs = [cs] := by
  induction cs with
  | nil => rfl
  | cons c cs ih =>
    have hc : c ≠ ',' := fun heq => h (heq ▸ List.mem_cons_self)
    rw [commaParts, ih fun hcs => h (List.mem_cons_of_mem c hcs)]
    exact if_neg hc

/-- A text is parted at its first comma. -/
theorem commaParts_append {first : List Char} (h : ',' ∉ first) (rest : List Char) :
    commaParts (first ++ ',' :: rest) = first :: commaParts rest := by
  induction first with
  | nil =>
    obtain ⟨part, parts, hrest⟩ := List.exists_cons_of_ne_nil (commaParts_ne_nil rest)
    rw [List.nil_append, commaParts, hrest]
    rfl
  | cons c first ih =>
    have hc : c ≠ ',' := fun heq => h (heq ▸ List.mem_cons_self)
    rw [List.cons_append, commaParts, ih fun hfirst => h (List.mem_cons_of_mem c hfirst)]
    exact if_neg hc

/-- There are two parts exactly where there is one comma. -/
theorem commaParts_eq_pair_iff {cs first second : List Char} :
    commaParts cs = [first, second] ↔ cs = first ++ ',' :: second ∧ ',' ∉ first ∧ ',' ∉ second := by
  constructor
  · intro h
    by_cases hcs : ',' ∈ cs
    · obtain ⟨before, rest, rfl, hbefore⟩ := List.eq_append_cons_of_mem hcs
      rw [commaParts_append hbefore] at h
      obtain ⟨rfl, hrest⟩ := List.cons.inj h
      by_cases hmore : ',' ∈ rest
      · obtain ⟨middle, last, rfl, hmiddle⟩ := List.eq_append_cons_of_mem hmore
        rw [commaParts_append hmiddle] at hrest
        exact absurd (List.cons.inj hrest).2 (commaParts_ne_nil last)
      · rw [commaParts_of_notMem hmore] at hrest
        obtain rfl := (List.cons.inj hrest).1
        exact ⟨rfl, hbefore, hmore⟩
    · rw [commaParts_of_notMem hcs] at h
      cases h
  · rintro ⟨rfl, hfirst, hsecond⟩
    rw [commaParts_append hfirst, commaParts_of_notMem hsecond]

end Text

namespace Placeholder

/-! ### Cutting a text -/

/-- No placeholder is opened in a text. -/
def Unopened (cs : List Char) : Prop := ¬ opened [] <:+: cs

/-- Two numbers with one comma between them stand between the brackets. -/
def Bounds {α : Type} [Numeral α] (inside : List Char) (low high : α) : Prop :=
  ∃ first second, inside = first ++ ',' :: second ∧ ',' ∉ first ∧ ',' ∉ second ∧
    Numeral.read? first = some low ∧ Numeral.read? second = some high

/-- A piece of a text. -/
inductive Piece (α : Type) where
  /-- Text in which no placeholder is opened. -/
  | plain (cs : List Char)
  /-- A placeholder that holds two numbers. -/
  | numbers (inside : List Char) (low high : α)
  /-- A placeholder that holds something else. -/
  | other (inside : List Char)
  /-- A placeholder that is not closed. -/
  | unclosed (inside : List Char)

namespace Piece

variable {α : Type}

/-- The text of a piece. -/
def written : Piece α → List Char
  | plain cs => cs
  | numbers inside _ _ | other inside => opened inside ++ [']']
  | unclosed inside => opened inside

/-- The numbers between which one is to be drawn. -/
def bounds? : Piece α → Option (α × α)
  | numbers _ low high => some (low, high)
  | plain _ | other _ | unclosed _ => none

/-- What is reported of a piece. -/
def error? (p : Piece α) : Option ParseError :=
  match p with
  | plain _ | numbers _ _ _ => none
  | other _ | unclosed _ => some (.malformedRandom (String.ofList p.written))

end Piece

/-- A text cut from left to right: the first placeholder that is opened goes as far as the first
bracket that closes it, and the text behind it is cut likewise. -/
inductive Cut {α : Type} [Numeral α] : List Char → List (Piece α) → Prop
  | plain {cs : List Char} (hcs : Unopened cs) : Cut cs [.plain cs]
  | unclosed {before inside : List Char} (hbefore : Unopened before) (hinside : ']' ∉ inside) :
    Cut (before ++ opened inside) [.plain before, .unclosed inside]
  | numbers {before inside rest : List Char} {low high : α} {ps : List (Piece α)}
    (hbefore : Unopened before) (hinside : ']' ∉ inside) (hbounds : Bounds inside low high)
    (hrest : Cut rest ps) :
    Cut (before ++ opened (inside ++ ']' :: rest)) (.plain before :: .numbers inside low high :: ps)
  | other {before inside rest : List Char} {ps : List (Piece α)}
    (hbefore : Unopened before) (hinside : ']' ∉ inside)
    (hbounds : ∀ low high : α, ¬ Bounds inside low high) (hrest : Cut rest ps) :
    Cut (before ++ opened (inside ++ ']' :: rest)) (.plain before :: .other inside :: ps)

section

variable {α : Type} [Numeral α] {before inside rest cs : List Char} {low high : α}

theorem bounds?_eq_some_iff : bounds? inside = some (low, high) ↔ Bounds inside low high := by
  unfold bounds? Bounds
  constructor
  · intro h
    split at h
    · next low' high' hparts =>
      obtain ⟨rfl, rfl⟩ := Prod.mk.inj (Option.some.inj h)
      obtain ⟨first, parts, hfirst, hlow, hrest⟩ := List.map_eq_cons_iff.mp hparts
      obtain ⟨second, parts, rfl, hhigh, hnil⟩ := List.map_eq_cons_iff.mp hrest
      obtain rfl := List.map_eq_nil_iff.mp hnil
      obtain ⟨heq, hcomma, hcomma'⟩ := Text.commaParts_eq_pair_iff.mp hfirst
      exact ⟨first, second, heq, hcomma, hcomma', hlow, hhigh⟩
    · cases h
  · rintro ⟨first, second, heq, hfirst, hsecond, hlow, hhigh⟩
    rw [Text.commaParts_eq_pair_iff.mpr ⟨heq, hfirst, hsecond⟩]
    simp only [List.map_cons, List.map_nil, hlow, hhigh]

/-- Where a placeholder is opened in a text, there is a first place. -/
theorem unopened_or (cs : List Char) :
    Unopened cs ∨ ∃ before rest, cs = before ++ opened rest ∧ Unopened before := by
  induction cs with
  | nil => exact .inl (by simp [Unopened, opened])
  | cons c cs ih =>
    by_cases hopen : ∃ rest, c :: cs = opened rest
    · obtain ⟨rest, heq⟩ := hopen
      exact .inr ⟨[], rest, heq, by simp [Unopened, opened]⟩
    have hstep {ds : List Char} (hds : Unopened ds) (hnot : ¬ ∃ rest, c :: ds = opened rest) :
        Unopened (c :: ds) := by
      intro hwithin
      rcases List.infix_cons_iff.mp hwithin with ⟨rest, heq⟩ | hwithin
      · exact hnot ⟨rest, heq.symm⟩
      · exact hds hwithin
    rcases ih with hcs | ⟨before, rest, rfl, hbefore⟩
    · exact .inl (hstep hcs hopen)
    · refine .inr ⟨c :: before, rest, rfl, hstep hbefore ?_⟩
      rintro ⟨more, heq⟩
      exact hopen ⟨more ++ opened rest, by rw [← List.cons_append, heq]; rfl⟩

/-- **Every text can be cut.** -/
theorem exists_cut (text : List Char) : ∃ ps : List (Piece α), Cut text ps := by
  induction hn : text.length using Nat.strong_induction_on generalizing text with
  | _ n ih =>
  rcases unopened_or text with htext | ⟨before, rest, rfl, hbefore⟩
  · exact ⟨_, .plain htext⟩
  by_cases hclose : ']' ∈ rest
  · obtain ⟨inside, rest, rfl, hinside⟩ := List.eq_append_cons_of_mem hclose
    have hlt : rest.length < n := by
      simp only [opened, List.length_append, List.length_cons] at hn
      omega
    obtain ⟨ps, hrest⟩ := ih _ hlt rest rfl
    by_cases hbounds : ∃ low high : α, Bounds inside low high
    · obtain ⟨low, high, hbounds⟩ := hbounds
      exact ⟨_, .numbers hbefore hinside hbounds hrest⟩
    · exact ⟨_, .other hbefore hinside (fun low high h => hbounds ⟨low, high, h⟩) hrest⟩
  · exact ⟨_, .unclosed hbefore hclose⟩

/-- A placeholder is opened where it is opened. -/
theorem not_unopened : ¬ Unopened (before ++ opened rest) :=
  fun h => h ⟨before, rest, by simp [opened]⟩

omit [Numeral α] in
/-- Two ways to divide a text are the same if neither is before the other. -/
theorem append_inj_of_first {first first' last last' : List α}
    (h : ∀ more, first' = first ++ more → last = more ++ last' → more = [])
    (h' : ∀ more, first = first' ++ more → last' = more ++ last → more = [])
    (heq : first ++ last = first' ++ last') : first = first' ∧ last = last' := by
  rcases List.append_eq_append_iff.mp heq with ⟨more, hfirst, hlast⟩ | ⟨more, hfirst, hlast⟩
  · obtain rfl := h more hfirst hlast
    exact ⟨by simpa using hfirst.symm, by simpa using hlast⟩
  · obtain rfl := h' more hfirst hlast
    exact ⟨by simpa using hfirst, by simpa using hlast.symm⟩

/-- No other place where a placeholder is opened is before the first one. -/
theorem Unopened.append_inj {before' rest' : List Char} (h : Unopened before)
    (h' : Unopened before') (heq : before ++ opened rest = before' ++ opened rest') :
    before = before' ∧ rest = rest' := by
  have hnone {first first' rest rest' : List Char} (h : Unopened first') (more : List Char)
      (hfirst : first' = first ++ more) (hlast : opened rest = more ++ opened rest') :
      more = [] := by
    subst hfirst
    match more, hlast with
    | [], _ => rfl
    | [_], hlast => cases hlast
    | _ :: _ :: more, hlast =>
      simp only [opened, List.cons_append, List.cons.injEq] at hlast
      obtain ⟨rfl, rfl, -⟩ := hlast
      exact absurd h not_unopened
  obtain ⟨rfl, hrest⟩ := append_inj_of_first (hnone h') (hnone h) heq
  exact ⟨rfl, by simpa [opened] using hrest⟩

/-- No other bracket that closes it is before the first one. -/
theorem closed_inj {inside' rest' : List Char} (h : ']' ∉ inside) (h' : ']' ∉ inside')
    (heq : inside ++ ']' :: rest = inside' ++ ']' :: rest') : inside = inside' ∧ rest = rest' := by
  have hnone {first first' rest rest' : List Char} (h : ']' ∉ first') (more : List Char)
      (hfirst : first' = first ++ more) (hlast : ']' :: rest = more ++ ']' :: rest') :
      more = [] := by
    subst hfirst
    match more, hlast with
    | [], _ => rfl
    | c :: more, hlast =>
      obtain ⟨rfl, -⟩ := List.cons.inj hlast
      exact absurd (List.mem_append_right first List.mem_cons_self) h
  obtain ⟨rfl, hrest⟩ := append_inj_of_first (hnone h') (hnone h) heq
  exact ⟨rfl, (List.cons.inj hrest).2⟩

/-- A text with a placeholder that is closed is cut behind it. -/
theorem Cut.of_closed {ps : List (Piece α)} (h : Cut (before ++ opened (inside ++ ']' :: rest)) ps)
    (hbefore : Unopened before) (hinside : ']' ∉ inside) :
    ∃ qs, Cut rest qs ∧
      ((∃ low high : α, Bounds inside low high ∧
          ps = .plain before :: .numbers inside low high :: qs) ∨
        (∀ low high : α, ¬ Bounds inside low high) ∧
          ps = .plain before :: .other inside :: qs) := by
  generalize htext : before ++ opened (inside ++ ']' :: rest) = text at h
  cases h with
  | plain hcs => exact absurd (htext ▸ hcs) not_unopened
  | unclosed hbefore' hinside' =>
    obtain ⟨-, rfl⟩ := hbefore.append_inj hbefore' htext
    exact absurd (List.mem_append_right _ List.mem_cons_self) hinside'
  | numbers hbefore' hinside' hbounds hrest =>
    obtain ⟨rfl, heq⟩ := hbefore.append_inj hbefore' htext
    obtain ⟨rfl, rfl⟩ := closed_inj hinside hinside' heq
    exact ⟨_, hrest, .inl ⟨_, _, hbounds, rfl⟩⟩
  | other hbefore' hinside' hbounds hrest =>
    obtain ⟨rfl, heq⟩ := hbefore.append_inj hbefore' htext
    obtain ⟨rfl, rfl⟩ := closed_inj hinside hinside' heq
    exact ⟨_, hrest, .inr ⟨hbounds, rfl⟩⟩

/-- **No text can be cut in two ways.** -/
theorem Cut.unique {ps qs : List (Piece α)} (h : Cut text ps) (h' : Cut text qs) : qs = ps := by
  induction h generalizing qs with
  | plain hcs =>
    cases h' with
    | plain => rfl
    | unclosed | numbers | other => exact absurd hcs not_unopened
  | @unclosed before inside hbefore hinside =>
    generalize htext : before ++ opened inside = text at h'
    cases h' with
    | plain hcs => exact absurd (htext ▸ hcs) not_unopened
    | unclosed hbefore' _ =>
      obtain ⟨rfl, rfl⟩ := hbefore.append_inj hbefore' htext
      rfl
    | numbers hbefore' | other hbefore' =>
      obtain ⟨-, rfl⟩ := hbefore.append_inj hbefore' htext
      exact absurd (List.mem_append_right _ List.mem_cons_self) hinside
  | numbers hbefore hinside hbounds _ ih =>
    obtain ⟨qs, hrest, ⟨low, high, hbounds', rfl⟩ | ⟨hnot, -⟩⟩ := h'.of_closed hbefore hinside
    · have hsame := (bounds?_eq_some_iff.mpr hbounds').symm.trans (bounds?_eq_some_iff.mpr hbounds)
      obtain ⟨rfl, rfl⟩ := Prod.mk.inj (Option.some.inj hsame)
      rw [ih hrest]
    · exact absurd hbounds (hnot _ _)
  | other hbefore hinside hbounds _ ih =>
    obtain ⟨qs, hrest, ⟨low, high, hbounds', -⟩ | ⟨-, rfl⟩⟩ := h'.of_closed hbefore hinside
    · exact absurd hbounds' (hbounds low high)
    · rw [ih hrest]

/-- The pieces make up the text. -/
theorem Cut.flatMap_written {ps : List (Piece α)} (h : Cut text ps) :
    ps.flatMap Piece.written = text := by
  induction h with
  | plain => simp [Piece.written]
  | unclosed => simp [Piece.written]
  | numbers _ _ _ _ ih => simp [Piece.written, opened, ih]
  | other _ _ _ _ ih => simp [Piece.written, opened, ih]

end

/-! ### Resolving a text piece by piece -/

/-- Draws a number between each two bounds, in order. -/
def drawEach {α ρ : Type} [Scalar α] [RandomSource ρ α] : List (α × α) → ρ → List α × ρ
  | [], s => ([], s)
  | (low, high) :: bounds, s =>
    let (x, s) := RandomSource.nextBetween low high s
    let (xs, s) := drawEach bounds s
    (x :: xs, s)

/-- The pieces one after another, with the texts of the given numbers in the places of
those that hold two numbers. -/
def fill {α : Type} [Numeral α] : List (Piece α) → List α → List Char
  | [], _ => []
  | .numbers _ _ _ :: ps, x :: xs => Numeral.text x ++ fill ps xs
  | p :: ps, xs => p.written ++ fill ps xs

/-- What has been resolved of a text, with the resolved rest behind it. -/
def Resolved.append {ρ : Type} (first : Resolved) (rest : Resolved × ρ) : Resolved × ρ :=
  (⟨first.text ++ rest.1.text, first.errors ++ rest.1.errors⟩, rest.2)

section

variable {α ρ σ : Type} [Scalar α] [Numeral α] [RandomSource ρ α] [RandomSource σ α]
  {text before inside rest : List Char} {ps : List (Piece α)}

omit [Numeral α] in
theorem length_drawEach (bounds : List (α × α)) (s : ρ) :
    (drawEach bounds s).1.length = bounds.length := by
  induction bounds generalizing s with
  | nil => rfl
  | cons b bounds ih => simp [drawEach, ih]

/-- Text in which no placeholder is opened is copied, if none is opened across its end. -/
theorem resolveFrom_unopened (h : Unopened before)
    (hend : before.getLast? = some 'R' → rest.head? ≠ some '[') (s : ρ) :
    resolveFrom none (before ++ rest) s =
      Resolved.append ⟨before, []⟩ (resolveFrom none rest s) := by
  induction before with
  | nil => rfl
  | cons c before ih =>
    have hbefore : Unopened before :=
      fun hwithin => h (hwithin.trans (List.suffix_cons c before).isInfix)
    have hnot : ∀ more, c = 'R' → before ++ rest = '[' :: more → False := by
      rintro more rfl hmore
      rcases before with - | ⟨d, before⟩
      · exact hend rfl (by rw [← List.nil_append rest, hmore]; rfl)
      · obtain ⟨rfl, -⟩ := List.cons.inj hmore
        exact h ⟨[], before, rfl⟩
    have hend' : before.getLast? = some 'R' → rest.head? ≠ some '[' := by
      intro hlast
      refine hend ?_
      rw [List.getLast?_cons, hlast]
      rfl
    rw [List.cons_append, resolveFrom.eq_4 s c _ hnot, ih hbefore hend']
    rfl

/-- A placeholder that is closed is replaced. -/
theorem resolveFrom_closed (hinside : ']' ∉ inside) (reversed : List Char) (s : ρ) :
    resolveFrom (some reversed) (inside ++ ']' :: rest) s =
      let (first, s) := replace (reversed.reverse ++ inside) s
      Resolved.append first (resolveFrom none rest s) := by
  induction inside generalizing reversed with
  | nil =>
    rw [List.nil_append, resolveFrom, if_pos rfl, List.append_nil]
    rfl
  | cons c inside ih =>
    have hc : c ≠ ']' := fun heq => hinside (heq ▸ List.mem_cons_self)
    rw [List.cons_append, resolveFrom, if_neg hc, ih fun h => hinside (List.mem_cons_of_mem c h)]
    simp

/-- One that is not closed is left as it is. -/
theorem resolveFrom_unclosed (hinside : ']' ∉ inside) (reversed : List Char) (s : ρ) :
    resolveFrom (some reversed) inside s =
      (⟨opened (reversed.reverse ++ inside),
        [.malformedRandom (String.ofList (opened (reversed.reverse ++ inside)))]⟩, s) := by
  induction inside generalizing reversed with
  | nil =>
    rw [resolveFrom, List.append_nil]
  | cons c inside ih =>
    have hc : c ≠ ']' := fun heq => hinside (heq ▸ List.mem_cons_self)
    rw [resolveFrom, if_neg hc, ih fun h => hinside (List.mem_cons_of_mem c h)]
    simp

/-- A text is resolved up to the first placeholder in it, then at that one. -/
theorem resolve_opened (hbefore : Unopened before) (s : ρ) :
    resolve (before ++ opened rest) s =
      Resolved.append ⟨before, []⟩ (resolveFrom (some []) rest s) :=
  resolveFrom_unopened hbefore (fun _ => by simp [opened]) s

theorem replace_of_bounds {low high : α} (h : Bounds inside low high) (s : ρ) :
    replace inside s =
      (⟨Numeral.text (RandomSource.nextBetween low high s).1, []⟩,
        (RandomSource.nextBetween low high s).2) := by
  rw [replace, bounds?_eq_some_iff.mpr h]

theorem replace_of_not_bounds (h : ∀ low high : α, ¬ Bounds inside low high) (s : ρ) :
    replace inside s =
      (⟨opened inside ++ [']'],
        [.malformedRandom (String.ofList (opened inside ++ [']']))]⟩, s) := by
  have hnone : bounds? (α := α) inside = none :=
    Option.eq_none_iff_forall_ne_some.mpr fun b hb => h b.1 b.2 (bounds?_eq_some_iff.mp hb)
  rw [replace, hnone]

/-- **A text is resolved as it is cut**: one number is drawn for each piece that holds two,
in order, and its text is put in; every other piece stays, and those that look like
placeholders are reported. -/
theorem Cut.resolve_eq (h : Cut text ps) (s : ρ) :
    resolve text s =
      let (xs, s) := drawEach (ps.filterMap Piece.bounds?) s
      (⟨fill ps xs, ps.filterMap Piece.error?⟩, s) := by
  induction h generalizing s with
  | @plain cs hcs =>
    have hall : resolveFrom none (cs ++ []) s = Resolved.append ⟨cs, []⟩ (resolveFrom none [] s) :=
      resolveFrom_unopened hcs (fun _ => by simp) s
    rw [List.append_nil] at hall
    rw [resolve, hall]
    rfl
  | unclosed hbefore hinside =>
    rw [resolve_opened hbefore, resolveFrom_unclosed hinside]
    simp [Resolved.append, drawEach, fill, Piece.bounds?, Piece.error?, Piece.written,
      List.filterMap_cons]
  | @numbers before inside rest low high ps hbefore hinside hbounds _ ih =>
    rw [resolve_opened hbefore, resolveFrom_closed hinside, List.reverse_nil, List.nil_append,
      replace_of_bounds hbounds]
    have hrest := ih (RandomSource.nextBetween low high s).2
    rw [resolve] at hrest
    dsimp only
    rw [hrest]
    rfl
  | @other before inside rest ps hbefore hinside hbounds _ ih =>
    rw [resolve_opened hbefore, resolveFrom_closed hinside, List.reverse_nil, List.nil_append,
      replace_of_not_bounds hbounds]
    have hrest := ih s
    rw [resolve] at hrest
    dsimp only
    rw [hrest]
    rfl

/-! ### Resolving once more -/

/-- A text that opens no placeholder, and with which none is opened either by what stands before it
or by what stands behind it. -/
structure Inert (cs : List Char) : Prop where
  ne_nil : cs ≠ []
  not_letter : 'R' ∉ cs
  not_bracket : '[' ∉ cs

/-- **Nothing is left to be drawn**: where each piece that holds two numbers has been replaced by an
inert text, the text is resolved to itself, and the same is reported of it. -/
theorem Cut.resolve_fill (hinert : ∀ x : α, Inert (Numeral.text x)) (h : Cut text ps) {xs : List α}
    (hlength : xs.length = (ps.filterMap Piece.bounds?).length) (s : σ) :
    resolve (fill ps xs) s = (⟨fill ps xs, ps.filterMap Piece.error?⟩, s) := by
  induction h generalizing xs with
  | plain hcs =>
    have hresolve := (Cut.plain (α := α) hcs).resolve_eq s
    simpa [drawEach, fill, Piece.bounds?, Piece.written, List.filterMap_cons] using hresolve
  | unclosed hbefore hinside =>
    have hresolve := (Cut.unclosed (α := α) hbefore hinside).resolve_eq s
    simpa [drawEach, fill, Piece.bounds?, Piece.written, List.filterMap_cons] using hresolve
  | @numbers before inside rest low high ps hbefore _ _ _ ih =>
    -- the text that is put in stands between what is copied before it and what
    -- is resolved behind it
    obtain ⟨x, xs, rfl⟩ := List.exists_cons_of_length_eq_add_one hlength
    obtain ⟨hne, hletter, hbracket⟩ := hinert x
    have hplain : Unopened (Numeral.text x) :=
      fun hwithin => hletter (hwithin.subset List.mem_cons_self)
    have hstart : (Numeral.text x ++ fill ps xs).head? ≠ some '[' := by
      obtain ⟨c, cs, hcs⟩ := List.exists_cons_of_ne_nil hne
      rw [hcs] at hbracket ⊢
      rintro ⟨⟩
      exact hbracket List.mem_cons_self
    have hend : (Numeral.text x).getLast? = some 'R' → (fill ps xs).head? ≠ some '[' :=
      fun hlast => absurd (List.mem_of_getLast? hlast) hletter
    have hrest := ih (Nat.succ.inj hlength)
    rw [resolve] at hrest
    show resolveFrom none (before ++ (Numeral.text x ++ fill ps xs)) s = _
    rw [resolveFrom_unopened hbefore (fun _ => hstart), resolveFrom_unopened hplain hend, hrest]
    rfl
  | @other before inside rest ps hbefore hinside hbounds _ ih =>
    have hrest := ih hlength
    rw [resolve] at hrest
    have hfill : fill (.plain before :: .other inside :: ps) xs =
        before ++ opened (inside ++ ']' :: fill ps xs) := by
      show before ++ (opened inside ++ [']'] ++ fill ps xs) = _
      simp [opened]
    rw [hfill, resolve_opened hbefore, resolveFrom_closed hinside, List.reverse_nil,
      List.nil_append, replace_of_not_bounds hbounds]
    dsimp only
    rw [hrest, ← hfill]
    rfl

end

/-! ### The texts of numbers -/

/-- Digits with a point at some place are digits and points. -/
theorem mem_positionalText {digits : List Char} (hdigits : ∀ c ∈ digits, c.isDigit) {k : Int}
    {c : Char} (hc : c ∈ Decimal.Layout.plain.positionalText digits k) :
    c.isDigit ∨ c = '.' := by
  have hzero {n : Nat} (h : c ∈ List.replicate n '0') : c.isDigit := by
    obtain rfl := List.eq_of_mem_replicate h
    rfl
  unfold Decimal.Layout.positionalText at hc
  dsimp only at hc
  split at hc
  · simp only [Decimal.Layout.plain, String.toList_empty, List.append_nil, List.mem_append] at hc
    exact .inl (hc.elim (hdigits c) hzero)
  · split at hc
    · simp only [List.mem_append, List.mem_cons] at hc
      rcases hc with hc | hc | hc
      · exact .inl (hdigits c (List.mem_of_mem_take hc))
      · exact .inr hc
      · exact .inl (hdigits c (List.mem_of_mem_drop hc))
    · simp only [List.cons_append, List.mem_append, List.mem_cons] at hc
      rcases hc with rfl | hc | hc | hc
      · exact .inl rfl
      · exact .inr hc
      · exact .inl (hzero hc)
      · exact .inl (hdigits c hc)

theorem positionalText_ne_nil {digits : List Char} (hdigits : digits ≠ []) (k : Int) :
    Decimal.Layout.plain.positionalText digits k ≠ [] := by
  unfold Decimal.Layout.positionalText
  dsimp only
  split
  · simp [hdigits]
  · split <;> simp

/-- **The text of a number is inert.** -/
theorem inert_text (x : Float32) : Inert (Numeral.text x) := by
  have hsigned {cs : List Char} (hne : cs ≠ []) (hcs : ∀ c ∈ cs, c.isDigit ∨ c = '.')
      (negative : Bool) : Inert ((if negative then ['-'] else []) ++ cs) := by
    have hnot {c : Char} (hdigit : c.isDigit = false) (hmark : c ≠ '.' ∧ c ≠ '-') :
        c ∉ (if negative then ['-'] else []) ++ cs := by
      intro hc
      rcases List.mem_append.mp hc with hc | hc
      · split at hc
        · exact hmark.2 (List.mem_singleton.mp hc)
        · cases hc
      · rcases hcs c hc with h | h
        · exact absurd h (by simp [hdigit])
        · exact hmark.1 h
    exact ⟨by simp [hne], hnot rfl (by decide), hnot rfl (by decide)⟩
  show Inert (Decimal.Layout.plain.text x)
  unfold Decimal.Layout.text
  split
  · exact ⟨by decide, by decide, by decide⟩
  · next negative _ =>
    cases negative <;> exact ⟨by decide, by decide, by decide⟩
  · next negative m e _ =>
    apply hsigned
    · split
      · simp
      · exact positionalText_ne_nil Nat.toDigits_ne_nil _
    · intro c hc
      split at hc
      · obtain rfl : c = '0' := by simpa [Decimal.Layout.plain] using hc
        exact .inl rfl
      · exact mem_positionalText (List.all_eq_true.mp (Decimal.isDigit_toDigits _)) hc

/-- **Placeholders are read once, from left to right.**  There is one way to cut a text at the
placeholders in it.  For each that holds two numbers one number is drawn between them, in the order
in which they stand, and its text is put in the place of the placeholder; everything else stays as
it is, and each other placeholder is reported once.  Resolving the result again, with any source,
draws nothing and gives the same result. -/
theorem resolve_leftToRight {ρ : Type} [RandomSource ρ Float32] (text : List Char) (s : ρ) :
    ∃ pieces : List (Piece Float32), Cut text pieces ∧
      (∀ others, Cut text others → others = pieces) ∧
      pieces.flatMap Piece.written = text ∧
      (resolve text s =
        let (xs, s) := drawEach (pieces.filterMap Piece.bounds?) s
        (⟨fill pieces xs, pieces.filterMap Piece.error?⟩, s)) ∧
      ∀ {σ : Type} [RandomSource σ Float32] (t : σ),
        resolve (resolve text s).1.text t = ((resolve text s).1, t) := by
  obtain ⟨pieces, hcut⟩ := exists_cut (α := Float32) text
  refine ⟨pieces, hcut, fun _ hothers => hcut.unique hothers, hcut.flatMap_written,
    hcut.resolve_eq s, ?_⟩
  intro σ _ t
  rw [hcut.resolve_eq s]
  exact hcut.resolve_fill inert_text (length_drawEach _ s) t

/-- A letter before a placeholder, one inside a placeholder, and one that is not closed: the bracket
behind the first number does not open another one. -/
example : (resolve "RR[1,2][R[R[2,2],R[".toList (⟨#[0.5], 0⟩ : Replay)).1 =
    ⟨"R1.5[R[R[2,2],R[".toList, [.malformedRandom "R[R[2,2]", .malformedRandom "R["]⟩ := by
  decide +kernel

end Placeholder

end SpatialGrammar
