/-
SpatialGrammar/Proofs/JsonText.lean

The text of a JSON value is read as that value.

The layout breaks lines and indents them, and a reader passes over blanks, so what has to
be seen is that each written piece ends where its reader stops.  A string ends at its quote
because every quote inside it is escaped; an array and an object end at their brackets; a
numeral ends where something follows that is no part of a numeral, which the layout sees to.

`Json.Spelled` collects what a value must have for a text of it: strings that are texts, and
numerals that are JSON's.  The induction on it reads a value with anything that ends a numeral
behind it; items and members are read one after the other by an induction on their list.
-/
import Mathlib.Data.List.TakeWhile
import SpatialGrammar.Json.Reading
import SpatialGrammar.Json.Writing

namespace SpatialGrammar.Json

/-! ### Strings -/

/-- What the escape of a control character by number is read as. -/
theorem hexUnit?_control :
    ∀ n < 0x20, hexUnit? '0' '0' (Nat.digitChar (n / 16)) (Nat.digitChar (n % 16)) = some n := by
  decide

/-- An escape by a letter is read as the character that the letter stands for. -/
theorem pieces?_letter {e c : Char} (h : shortEscape? e = some c) (cs : List Char) :
    pieces? ('\\' :: e :: cs) = (pieces? cs).map fun (ps, rest) => (.char c :: ps, rest) := by
  have hnumber : e ≠ 'u' := by
    rintro rfl
    cases h
  rw [pieces?, h]
  exact fun _ _ _ _ _ he => absurd he hnumber

/-- A character that may stand for itself is read as itself. -/
theorem pieces?_plain {c : Char} (hquote : c ≠ '"') (hbackslash : c ≠ '\\')
    (hcontrol : ¬ c.toNat < 0x20) (cs : List Char) :
    pieces? (c :: cs) = (pieces? cs).map fun (ps, rest) => (.char c :: ps, rest) := by
  rw [pieces?, if_neg (not_or.mpr ⟨hcontrol, hbackslash⟩)]
  · exact hquote
  · exact fun _ _ _ _ _ h => absurd h hbackslash
  · exact fun _ _ h => absurd h hbackslash

/-- **A character that is written is one piece, and the piece stands for the character.** -/
theorem exists_piece (c : Char) : ∃ p,
    (∀ cs, pieces? (escape c ++ cs) = (pieces? cs).map fun (ps, rest) => (p :: ps, rest)) ∧
      ∀ ps cs, textOfPieces ps = some cs → textOfPieces (p :: ps) = some (c :: cs) := by
  have hchar : ∀ ps cs, textOfPieces ps = some cs →
      textOfPieces (.char c :: ps) = some (c :: cs) := by
    intro ps cs h
    rw [textOfPieces, h]
    rfl
  unfold escape
  split
  next h => exact ⟨.char c, pieces?_letter (by rcases h with rfl | rfl <;> rfl), hchar⟩
  split
  next h => exact ⟨.char c, pieces?_letter (by rw [h]; rfl), hchar⟩
  split
  next h => exact ⟨.char c, pieces?_letter (by rw [h]; rfl), hchar⟩
  split
  next h => exact ⟨.char c, pieces?_letter (by rw [h]; rfl), hchar⟩
  split
  next h => exact ⟨.char c, pieces?_letter (by rw [h]; rfl), hchar⟩
  split
  next h => exact ⟨.char c, pieces?_letter (by rw [h]; rfl), hchar⟩
  split
  next hcontrol =>
    -- a control character without a letter of its own is written by its number
    refine ⟨.unit c.toNat, fun cs => ?_, fun ps cs h => ?_⟩
    · simp [pieces?, hexUnit?_control c.toNat hcontrol]
    · rw [textOfPieces.eq_def]
      dsimp only
      rw [if_pos (.inl (by omega)), h, Option.map_some, Char.ofNat_toNat]
  next hquoted _ _ _ _ _ hcontrol =>
    obtain ⟨hquote, hbackslash⟩ := not_or.mp hquoted
    exact ⟨.char c, pieces?_plain hquote hbackslash hcontrol, hchar⟩

/-- The pieces of a written string stand for its characters. -/
theorem pieces?_flatMap_escape (cs rest : List Char) :
    ∃ ps, pieces? (cs.flatMap escape ++ '"' :: rest) = some (ps, rest) ∧
      textOfPieces ps = some cs := by
  induction cs with
  | nil => exact ⟨[], by simp [pieces?], rfl⟩
  | cons c cs ih =>
    obtain ⟨ps, hps, htext⟩ := ih
    obtain ⟨p, hpiece, hchar⟩ := exists_piece c
    refine ⟨p :: ps, ?_, hchar ps cs htext⟩
    rw [List.flatMap_cons, List.append_assoc, hpiece, hps]
    rfl

/-- A written string is read up to its closing quote. -/
theorem string?_stringText (s : String) (rest : List Char) :
    string? (s.toList.flatMap escape ++ '"' :: rest) = some (some s, rest) := by
  obtain ⟨ps, hps, htext⟩ := pieces?_flatMap_escape s.toList rest
  simp only [string?, hps, htext, Option.map_some, String.ofList_toList]

/-! ### Blanks -/

theorem skip_of_blank {c : Char} (h : isBlank c) (cs : List Char) : skip (c :: cs) = skip cs :=
  List.dropWhile_cons_of_pos h

theorem skip_of_not_blank {c : Char} (h : isBlank c = false) (cs : List Char) :
    skip (c :: cs) = c :: cs :=
  List.dropWhile_cons_of_neg (by simp [h])

@[simp] theorem skip_newline (depth : Nat) (cs : List Char) :
    skip (newline depth ++ cs) = skip cs := by
  have hspaces : ∀ n, skip (List.replicate n ' ' ++ cs) = skip cs := by
    intro n
    induction n with
    | zero => rfl
    | succ n ih => rw [List.replicate_succ, List.cons_append, skip_of_blank rfl, ih]
  rw [newline, List.cons_append, skip_of_blank rfl, hspaces]

theorem value?_newline (fuel depth : Nat) (cs : List Char) :
    value? fuel (newline depth ++ cs) = value? fuel cs := by
  cases fuel with
  | zero => rfl
  | succ fuel => rw [value?, value?, skip_newline]

theorem items?_newline (fuel depth : Nat) (cs : List Char) :
    items? fuel (newline depth ++ cs) = items? fuel cs := by
  cases fuel with
  | zero => rfl
  | succ fuel => rw [items?, items?, value?_newline]

theorem members?_newline (fuel depth : Nat) (cs : List Char) :
    members? fuel (newline depth ++ cs) = members? fuel cs := by
  cases fuel with
  | zero => rfl
  | succ fuel => rw [members?, members?, skip_newline]

/-! ### Numerals -/

theorem isNumeralChar_of_isDigit {c : Char} (h : c.isDigit) : isNumeralChar c := by
  simp [isNumeralChar, h]

theorem isNumeralChar_of_isExponent {cs : List Char} (h : isExponent cs) :
    ∀ c ∈ cs, isNumeralChar c := by
  have hdigits : ∀ {ds : List Char}, ds.all Char.isDigit → ∀ d ∈ ds, isNumeralChar d :=
    fun hds d hd => isNumeralChar_of_isDigit (List.all_eq_true.mp hds d hd)
  unfold isExponent at h
  split at h
  · simp
  next c cs =>
    simp only [Bool.and_eq_true, Bool.or_eq_true, decide_eq_true_eq] at h
    obtain ⟨⟨hmark, -⟩, hall⟩ := h
    rw [List.forall_mem_cons]
    refine ⟨by rcases hmark with rfl | rfl <;> decide, ?_⟩
    -- the digits may have a sign in front
    split at hall
    · exact List.forall_mem_cons.mpr ⟨by decide, hdigits hall⟩
    · exact List.forall_mem_cons.mpr ⟨by decide, hdigits hall⟩
    · exact hdigits hall

/-- Digits followed by numeral characters. -/
theorem isNumeralChar_of_dropWhile {cs : List Char}
    (h : ∀ c ∈ cs.dropWhile Char.isDigit, isNumeralChar c) : ∀ c ∈ cs, isNumeralChar c := by
  intro c hc
  rw [← List.takeWhile_append_dropWhile (p := Char.isDigit) (l := cs)] at hc
  rcases List.mem_append.mp hc with hc | hc
  · exact isNumeralChar_of_isDigit (List.mem_takeWhile_imp hc)
  · exact h c hc

theorem isNumeralChar_of_isFraction {cs : List Char} (h : isFraction cs) :
    ∀ c ∈ cs, isNumeralChar c := by
  unfold isFraction at h
  split at h
  next cs =>
    rw [Bool.and_eq_true] at h
    exact List.forall_mem_cons.mpr
      ⟨by decide, isNumeralChar_of_dropWhile (isNumeralChar_of_isExponent h.2)⟩
  next => exact isNumeralChar_of_isExponent h

/-- **A numeral has a digit or a minus sign in front, and nothing in it ends a numeral.** -/
theorem numeral_spec {cs : List Char} (h : isNumeral cs) :
    (∀ c ∈ cs, isNumeralChar c) ∧ ∃ c rest, cs = c :: rest ∧ (c = '-' ∨ c.isDigit) := by
  obtain ⟨body, hsign, hwhole, hfraction⟩ : ∃ body, (cs = '-' :: body ∨ cs = body) ∧
      body.takeWhile Char.isDigit ≠ [] ∧ isFraction (body.dropWhile Char.isDigit) := by
    unfold isNumeral at h
    simp only [Bool.and_eq_true, decide_eq_true_eq] at h
    split at h
    · exact ⟨_, .inl rfl, h.1.1, h.2⟩
    · exact ⟨_, .inr rfl, h.1.1, h.2⟩
  have hall := isNumeralChar_of_dropWhile (isNumeralChar_of_isFraction hfraction)
  rcases hsign with rfl | rfl
  · exact ⟨List.forall_mem_cons.mpr ⟨by decide, hall⟩, '-', body, rfl, .inl rfl⟩
  · refine ⟨hall, ?_⟩
    rcases cs with - | ⟨c, rest⟩
    · simp at hwhole
    · refine ⟨c, rest, rfl, .inr ?_⟩
      by_contra hdigit
      exact hwhole (List.takeWhile_cons_of_neg hdigit)

/-- A text that no numeral before it goes on into. -/
def EndsNumeral (cs : List Char) : Prop := ∀ c ∈ cs.head?, isNumeralChar c = false

/-- A numeral is read up to its end. -/
theorem atom?_numeral {numeral rest : List Char} (h : isNumeral numeral)
    (hrest : EndsNumeral rest) :
    atom? (numeral ++ rest) = some (.number (String.ofList numeral), rest) := by
  obtain ⟨hall, c, cs, rfl, hc⟩ := numeral_spec h
  have hword : ∀ {w : Char} {word : List Char}, w ≠ '-' → w.isDigit = false →
      after? (w :: word) ((c :: cs) ++ rest) = none := by
    intro w word hminus hdigit
    rw [List.cons_append, after?, if_neg]
    rintro rfl
    rcases hc with hc | hc
    · exact hminus hc
    · simp [hc] at hdigit
  have htake : ((c :: cs) ++ rest).takeWhile isNumeralChar = c :: cs := by
    rw [List.takeWhile_append_of_pos hall]
    cases rest with
    | nil => simp
    | cons d rest => simp [hrest d rfl]
  have hdrop : ((c :: cs) ++ rest).dropWhile isNumeralChar = rest := by
    rw [List.dropWhile_append_of_pos hall]
    cases rest with
    | nil => rfl
    | cons d rest => exact List.dropWhile_cons_of_neg (by simp [hrest d rfl])
  unfold atom?
  rw [show "null".toList = ['n', 'u', 'l', 'l'] from rfl,
    show "true".toList = ['t', 'r', 'u', 'e'] from rfl,
    show "false".toList = ['f', 'a', 'l', 's', 'e'] from rfl,
    hword (by decide) (by decide), hword (by decide) (by decide), hword (by decide) (by decide)]
  dsimp only
  rw [htake, hdrop, if_pos h]

/-! ### Values -/

/-- A value that a text can spell: every string is a text, and every numeral is one of JSON's. -/
inductive Spelled : Json → Prop
  | null : Spelled .null
  | bool (b : Bool) : Spelled (.bool b)
  | number {numeral : String} (h : isNumeral numeral.toList) : Spelled (.number numeral)
  | text (s : String) : Spelled (.string (some s))
  | array {items : List Json} (h : ∀ v ∈ items, Spelled v) : Spelled (.array items)
  | object {members : List (Option String × Json)} (names : ∀ m ∈ members, m.1.isSome)
      (h : ∀ m ∈ members, Spelled m.2) : Spelled (.object members)

/-- Where a text of a value begins there is no blank and no closing bracket. -/
theorem Spelled.head {v : Json} (h : Spelled v) (depth : Nat) : ∃ c cs,
    prettyAt depth v = c :: cs ∧ isBlank c = false ∧ c ≠ ']' ∧ c ≠ '\x7d' := by
  cases h with
  | null => exact ⟨'n', _, rfl, by decide⟩
  | bool b => cases b with
    | false => exact ⟨'f', _, rfl, by decide⟩
    | true => exact ⟨'t', _, rfl, by decide⟩
  | @number numeral h =>
    obtain ⟨hall, c, cs, hcs, -⟩ := numeral_spec h
    have hc : isNumeralChar c := hall c (by rw [hcs]; exact List.mem_cons_self)
    refine ⟨c, cs, hcs, ?_, ?_, ?_⟩
    · by_contra hblank
      simp only [isBlank, Bool.not_eq_false, Bool.or_eq_true, decide_eq_true_eq] at hblank
      rcases hblank with ((rfl | rfl) | rfl) | rfl <;> exact absurd hc (by decide)
    · rintro rfl
      exact absurd hc (by decide)
    · rintro rfl
      exact absurd hc (by decide)
  | text s => exact ⟨'"', _, rfl, by decide⟩
  | @array items h => cases items with
    | nil => exact ⟨'[', _, rfl, by decide⟩
    | cons v vs => exact ⟨'[', _, rfl, by decide⟩
  | @object members names h => cases members with
    | nil => exact ⟨'\x7b', _, rfl, by decide⟩
    | cons m ms => exact ⟨'\x7b', _, rfl, by decide⟩

theorem endsNumeral_newline (depth : Nat) (cs : List Char) : EndsNumeral (newline depth ++ cs) := by
  rintro c hc
  obtain rfl : '\n' = c := by simpa [newline] using hc
  decide

theorem endsNumeral_prettyItems (depth depth' : Nat) (vs : List Json) (cs : List Char) :
    EndsNumeral (prettyItems depth vs ++ (newline depth' ++ cs)) := by
  cases vs with
  | nil => exact endsNumeral_newline depth' cs
  | cons v vs =>
    rintro c hc
    obtain rfl : ',' = c := by simpa [prettyItems] using hc
    decide

theorem endsNumeral_prettyMembers (depth depth' : Nat) (ms : List (Option String × Json))
    (cs : List Char) : EndsNumeral (prettyMembers depth ms ++ (newline depth' ++ cs)) := by
  cases ms with
  | nil => exact endsNumeral_newline depth' cs
  | cons m ms =>
    rintro c hc
    obtain rfl : ',' = c := by simpa [prettyMembers] using hc
    decide

/-- With anything behind it that ends a numeral, a text of the value is read as the value. -/
def Reads (v : Json) : Prop := ∀ (depth fuel : Nat) (rest : List Char),
  (prettyAt depth v).length ≤ fuel → EndsNumeral rest →
    value? fuel (prettyAt depth v ++ rest) = some (v, rest)

section Lists

variable {depth depth' fuel : Nat} {cs more rest : List Char} {v : Json} {name : Option String}

theorem items?_last (hv : value? fuel cs = some (v, more)) (hend : skip more = ']' :: rest) :
    items? (fuel + 1) cs = some ([v], rest) := by
  simp [items?, hv, hend]

theorem items?_more (hv : value? fuel cs = some (v, more)) (hend : skip more = ',' :: rest) :
    items? (fuel + 1) cs = (items? fuel rest).map fun (vs, rest) => (v :: vs, rest) := by
  simp [items?, hv, hend]

theorem prettyItems_cons_append (u : Json) (vs : List Json) :
    prettyItems depth (u :: vs) ++ rest =
      ',' :: (newline depth ++ (prettyAt depth u ++ (prettyItems depth vs ++ rest))) := by
  simp [prettyItems]

/-- Items are read one after the other up to the closing bracket. -/
theorem Reads.items {vs : List Json} (hv : v.Reads) (hvs : ∀ u ∈ vs, u.Reads)
    (hfuel : (prettyAt depth v).length + (prettyItems depth vs).length < fuel) :
    items? fuel (prettyAt depth v ++ (prettyItems depth vs ++ (newline depth' ++ ']' :: rest))) =
      some (v :: vs, rest) := by
  induction vs generalizing v fuel with
  | nil =>
    obtain ⟨fuel, rfl⟩ : ∃ n, fuel = n + 1 := ⟨fuel - 1, by omega⟩
    have hread := hv depth fuel _ (by omega) (endsNumeral_newline depth' (']' :: rest))
    exact items?_last hread (by rw [skip_newline, skip_of_not_blank (by decide)])
  | cons u vs ih =>
    obtain ⟨fuel, rfl⟩ : ∃ n, fuel = n + 1 := ⟨fuel - 1, by omega⟩
    obtain ⟨hu, hvs⟩ := List.forall_mem_cons.mp hvs
    have hread := hv depth fuel _ (by omega)
      (endsNumeral_prettyItems depth depth' (u :: vs) (']' :: rest))
    rw [prettyItems_cons_append] at hread ⊢
    simp only [prettyItems, List.length_append, List.length_cons] at hfuel
    have hmore : items? fuel (prettyAt depth u ++
        (prettyItems depth vs ++ (newline depth' ++ ']' :: rest))) = some (u :: vs, rest) :=
      ih hu hvs (by omega)
    rw [items?_more hread (skip_of_not_blank (by decide) _), items?_newline, hmore]
    rfl

theorem value?_space (fuel : Nat) (cs : List Char) : value? fuel (' ' :: cs) = value? fuel cs := by
  cases fuel with
  | zero => rfl
  | succ fuel => rw [value?, value?, skip_of_blank rfl]

theorem members?_last {text : List Char} (hname : string? text = some (name, ':' :: ' ' :: cs))
    (hv : value? fuel cs = some (v, more)) (hend : skip more = '\x7d' :: rest) :
    members? (fuel + 1) ('"' :: text) = some ([(name, v)], rest) := by
  simp [members?, hname, value?_space, hv, hend, skip_of_not_blank, isBlank]

theorem members?_more {text : List Char} (hname : string? text = some (name, ':' :: ' ' :: cs))
    (hv : value? fuel cs = some (v, more)) (hend : skip more = ',' :: rest) :
    members? (fuel + 1) ('"' :: text) =
      (members? fuel rest).map fun (ms, rest) => ((name, v) :: ms, rest) := by
  simp [members?, hname, value?_space, hv, hend, skip_of_not_blank, isBlank]

/-- The text of a member, with its name, before what follows. -/
def memberText (depth : Nat) (s : String) (v : Json) (rest : List Char) : List Char :=
  stringText s ++ (':' :: ' ' :: (prettyAt depth v ++ rest))

theorem prettyMembers_cons_append (s : String) (u : Json) (ms : List (Option String × Json)) :
    prettyMembers depth ((some s, u) :: ms) ++ rest =
      ',' :: (newline depth ++ memberText depth s u (prettyMembers depth ms ++ rest)) := by
  simp [prettyMembers, memberText]

/-- Members are read one after the other up to the closing brace. -/
theorem Reads.members {s : String} {ms : List (Option String × Json)} (hv : v.Reads)
    (hnames : ∀ m ∈ ms, m.1.isSome) (hms : ∀ m ∈ ms, m.2.Reads)
    (hfuel : (prettyAt depth v).length + (prettyMembers depth ms).length < fuel) :
    members? fuel (memberText depth s v
      (prettyMembers depth ms ++ (newline depth' ++ '\x7d' :: rest))) =
        some ((some s, v) :: ms, rest) := by
  have hstring : ∀ s cs, string? (s.toList.flatMap escape ++ ['"'] ++ cs) = some (some s, cs) := by
    intro s cs
    rw [List.append_assoc]
    exact string?_stringText s cs
  induction ms generalizing s v fuel with
  | nil =>
    obtain ⟨fuel, rfl⟩ : ∃ n, fuel = n + 1 := ⟨fuel - 1, by omega⟩
    have hread := hv depth fuel _ (by omega) (endsNumeral_newline depth' ('\x7d' :: rest))
    exact members?_last (hstring s _) hread (by rw [skip_newline, skip_of_not_blank (by decide)])
  | cons m ms ih =>
    obtain ⟨fuel, rfl⟩ : ∃ n, fuel = n + 1 := ⟨fuel - 1, by omega⟩
    obtain ⟨hm, hreads⟩ := List.forall_mem_cons.mp hms
    obtain ⟨hname, hothers⟩ := List.forall_mem_cons.mp hnames
    obtain ⟨name, u⟩ := m
    obtain ⟨t, rfl⟩ := Option.isSome_iff_exists.mp hname
    have hread := hv depth fuel _ (by omega)
      (endsNumeral_prettyMembers depth depth' ((some t, u) :: ms) ('\x7d' :: rest))
    rw [prettyMembers_cons_append] at hread ⊢
    simp only [prettyMembers, List.length_append, List.length_cons] at hfuel
    have hmore : members? fuel (memberText depth t u
        (prettyMembers depth ms ++ (newline depth' ++ '\x7d' :: rest))) =
          some ((some t, u) :: ms, rest) :=
      ih hm hothers hreads (by omega)
    refine (members?_more (hstring s _) hread (skip_of_not_blank (by decide) _)).trans ?_
    rw [members?_newline, hmore]
    rfl

end Lists

theorem value?_array {fuel depth : Nat} {c : Char} {cs : List Char} (hblank : isBlank c = false)
    (hend : c ≠ ']') : value? (fuel + 1) ('[' :: (newline depth ++ c :: cs)) =
      (items? fuel (c :: cs)).map fun (vs, rest) => (.array vs, rest) := by
  have hbracket : isBlank '[' = false := rfl
  simp [value?, skip_of_not_blank, hbracket, hblank, hend]

theorem value?_object {fuel depth : Nat} {cs : List Char} :
    value? (fuel + 1) ('\x7b' :: (newline depth ++ '"' :: cs)) =
      (members? fuel ('"' :: cs)).map fun (ms, rest) => (.object ms, rest) := by
  simp [value?, skip_of_not_blank, isBlank]

theorem value?_atom {fuel : Nat} {c : Char} {cs : List Char} (h : isNumeralChar c ∨ c.isAlpha) :
    value? (fuel + 1) (c :: cs) = atom? (c :: cs) := by
  have hne : ∀ d : Char, isNumeralChar d = false → d.isAlpha = false → c ≠ d := by
    rintro d hd hd' rfl
    simp [hd, hd'] at h
  have hblank : isBlank c = false := by
    simp [isBlank, hne ' ' rfl rfl, hne '\n' rfl rfl, hne '\t' rfl rfl, hne '\r' rfl rfl]
  simp [value?, skip_of_not_blank hblank, hne '"' rfl rfl, hne '[' rfl rfl, hne '\x7b' rfl rfl]

/-- Fuel for a text is not used up, as the text is not empty. -/
theorem Spelled.exists_fuel {v : Json} (h : Spelled v) {depth fuel : Nat}
    (hfuel : (prettyAt depth v).length ≤ fuel) : ∃ n, fuel = n + 1 := by
  obtain ⟨c, cs, hcs, -⟩ := h.head depth
  rw [hcs, List.length_cons] at hfuel
  exact ⟨fuel - 1, by omega⟩

/-- An array that is not empty. -/
theorem Reads.array {v : Json} {vs : List Json} (hspelled : ∀ u ∈ v :: vs, Spelled u)
    (hreads : ∀ u ∈ v :: vs, u.Reads) : (Json.array (v :: vs)).Reads := by
  intro depth fuel rest hfuel hrest
  obtain ⟨fuel, rfl⟩ := (Spelled.array hspelled).exists_fuel hfuel
  obtain ⟨hv, hvs⟩ := List.forall_mem_cons.mp hreads
  obtain ⟨c, cs, hcs, hblank, hend, -⟩ := (hspelled v List.mem_cons_self).head (depth + 1)
  simp only [prettyAt, List.length_append, List.length_cons, List.length_nil] at hfuel
  -- behind the bracket and the line break stand the items, and then the closing bracket
  have hread : items? fuel (prettyAt (depth + 1) v ++ (prettyItems (depth + 1) vs ++
      (newline depth ++ ']' :: rest))) = some (v :: vs, rest) :=
    hv.items hvs (by omega)
  have htext : prettyAt depth (.array (v :: vs)) ++ rest = '[' :: (newline (depth + 1) ++
      (prettyAt (depth + 1) v ++ (prettyItems (depth + 1) vs ++
        (newline depth ++ ']' :: rest)))) := by
    simp [prettyAt]
  rw [hcs, List.cons_append] at hread htext
  rw [htext, value?_array hblank hend, hread]
  rfl

/-- An object that is not empty. -/
theorem Reads.object {m : Option String × Json} {ms : List (Option String × Json)}
    (hnames : ∀ n ∈ m :: ms, n.1.isSome) (hspelled : ∀ n ∈ m :: ms, Spelled n.2)
    (hreads : ∀ n ∈ m :: ms, n.2.Reads) : (Json.object (m :: ms)).Reads := by
  intro depth fuel rest hfuel hrest
  obtain ⟨fuel, rfl⟩ := (Spelled.object hnames hspelled).exists_fuel hfuel
  obtain ⟨name, v⟩ := m
  obtain ⟨hv, hms⟩ : v.Reads ∧ ∀ m ∈ ms, m.2.Reads := List.forall_mem_cons.mp hreads
  obtain ⟨hname, hothers⟩ := List.forall_mem_cons.mp hnames
  obtain ⟨s, rfl⟩ := Option.isSome_iff_exists.mp hname
  simp only [prettyAt, List.length_append, List.length_cons, List.length_nil] at hfuel
  have hread : members? fuel (memberText (depth + 1) s v (prettyMembers (depth + 1) ms ++
      (newline depth ++ '\x7d' :: rest))) = some ((some s, v) :: ms, rest) :=
    hv.members hothers hms (by omega)
  have htext : prettyAt depth (.object ((some s, v) :: ms)) ++ rest =
      '\x7b' :: (newline (depth + 1) ++ memberText (depth + 1) s v
        (prettyMembers (depth + 1) ms ++ (newline depth ++ '\x7d' :: rest))) := by
    simp [prettyAt, memberText]
  rw [htext]
  exact value?_object.trans (congrArg _ hread)

/-- **A value is read wherever it is written.** -/
theorem Spelled.reads {v : Json} (h : Spelled v) : v.Reads := by
  induction h with
  | null =>
    intro depth fuel rest hfuel hrest
    obtain ⟨fuel, rfl⟩ := Spelled.null.exists_fuel hfuel
    exact (value?_atom (.inr rfl)).trans rfl
  | bool b =>
    intro depth fuel rest hfuel hrest
    obtain ⟨fuel, rfl⟩ := (Spelled.bool b).exists_fuel hfuel
    cases b with
    | false => exact (value?_atom (.inr rfl)).trans rfl
    | true => exact (value?_atom (.inr rfl)).trans rfl
  | @number numeral hnumeral =>
    intro depth fuel rest hfuel hrest
    obtain ⟨fuel, rfl⟩ := (Spelled.number hnumeral).exists_fuel hfuel
    obtain ⟨hall, c, cs, hcs, -⟩ := numeral_spec hnumeral
    have hc : isNumeralChar c := hall c (by rw [hcs]; exact List.mem_cons_self)
    have hread := atom?_numeral hnumeral hrest
    rw [String.ofList_toList] at hread
    rw [prettyAt, ← hread, hcs]
    exact value?_atom (.inl hc)
  | text s =>
    intro depth fuel rest hfuel hrest
    obtain ⟨fuel, rfl⟩ := (Spelled.text s).exists_fuel hfuel
    simp [value?, prettyAt, stringText, skip_of_not_blank, isBlank, string?_stringText]
  | @array items hitems ih =>
    cases items with
    | nil =>
      intro depth fuel rest hfuel hrest
      obtain ⟨fuel, rfl⟩ := (Spelled.array hitems).exists_fuel hfuel
      rfl
    | cons v vs => exact .array hitems ih
  | @object members hnames hmembers ih =>
    cases members with
    | nil =>
      intro depth fuel rest hfuel hrest
      obtain ⟨fuel, rfl⟩ := (Spelled.object hnames hmembers).exists_fuel hfuel
      rfl
    | cons m ms => exact .object hnames hmembers ih

/-- **The text of a value is read as the value.** -/
theorem read?_pretty {v : Json} (h : Spelled v) : read? v.pretty = some v := by
  have hread := h.reads 0 (2 * (prettyAt 0 v).length + 2) [] (by omega) (by simp [EndsNumeral])
  rw [List.append_nil] at hread
  simp [read?, pretty, String.toList_ofList, hread, skip]

end SpatialGrammar.Json
