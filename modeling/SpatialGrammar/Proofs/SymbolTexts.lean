/-
SpatialGrammar/Proofs/SymbolTexts.lean

Texts of whole symbols.

A text without slashes begins with whole symbols, with blanks between them, and ends or
goes on with something else.  `Scan.Spaced` is the first part, together with what stands
inside its brackets, and `Scan.Stops` says what the rest is like and which fault it is
reported as.  The reading takes as much as it can for the first part
(`Scan.tokenize_spaced`), whatever the kinds and the arguments of the symbols are
(`parse_grammar`).

What is written of symbols is nothing but whole symbols, so reading it finds the same
symbols, draws the same numbers and reports all but the fault that ended the first
reading (`parse_render_parse`).
-/
import Mathlib.Data.List.Infix
import SpatialGrammar.Proofs.Comments

namespace SpatialGrammar

namespace Scan

/-! ### The first part and the rest -/

/-- A text of whole symbols and blanks, with what stands inside the brackets, in order. -/
inductive Spaced : List (List Char) → List Char → Prop
  | nil : Spaced [] []
  | blank {c : Char} {bodies : List (List Char)} {text : List Char} (hblank : Text.isBlank c)
    (h : Spaced bodies text) : Spaced bodies (c :: text)
  | symbol {body : List Char} {bodies : List (List Char)} {text : List Char}
    (hbody : ∀ d ∈ body, isInner d) (h : Spaced bodies text) :
    Spaced (body :: bodies) ('<' :: (body ++ '>' :: text))

/-- No whole symbol and no blank stands at the beginning of the text, which starts at byte `offset`,
and this is the fault that it is reported as; the empty text is without fault. -/
inductive Stops (offset : Nat) : List Char → Option ParseError → Prop
  | ended : Stops offset [] none
  | stray {c : Char} {rest : List Char} (hopen : c ≠ '<') (hblank : ¬ Text.isBlank c) :
    Stops offset (c :: rest) (some (.missingOpen offset c))
  | reopened {body rest : List Char} (hbody : ∀ d ∈ body, isInner d) :
    Stops offset ('<' :: (body ++ '<' :: rest))
      (some (.unexpectedOpen (offset + byteCount ('<' :: body))))
  | unclosed {body : List Char} (hbody : ∀ d ∈ body, isInner d) :
    Stops offset ('<' :: body) (some (.unclosed offset))

/-- What a scan says of a text that starts at byte `offset`: its bodies are those of
`read`, the longest beginning of the text that consists of whole symbols and blanks, and
its fault is that of the `rest`. -/
structure Divides (found : Scan) (offset : Nat) (text read rest : List Char) : Prop where
  text_eq : text = read ++ rest
  spaced : Spaced found.bodies read
  stops : Stops (offset + byteCount read) rest found.fault
  longest : ∀ first, Whole first → first <+: text → first <+: read

theorem Spaced.whole {bodies : List (List Char)} {text : List Char} (h : Spaced bodies text) :
    Whole text := by
  induction h with
  | nil => exact .nil
  | blank hblank _ ih => exact .blank hblank ih
  | symbol hbody _ ih => exact .symbol hbody ih

section

variable {offset : Nat} {rest : List Char} {fault : Option ParseError}

/-- Where the reading stops, no more can be read. -/
theorem Stops.eq_nil_of_whole (h : Stops offset rest fault) {first : List Char}
    (hfirst : Whole first) (hbegins : first <+: rest) : first = [] := by
  obtain ⟨after, hafter⟩ := hbegins
  cases hfirst with
  | nil => rfl
  | @blank c _ hblank =>
    have hopen : c ≠ '<' := (not_isBlank_of_bracket hblank).2
    cases h with
    | ended => cases hafter
    | stray _ hnot => exact absurd hblank ((List.cons.inj hafter).1 ▸ hnot)
    | reopened => exact absurd (List.cons.inj hafter).1 hopen
    | unclosed => exact absurd (List.cons.inj hafter).1 hopen
  | @symbol body more hbody =>
    -- the bracket that closes the symbol would stand in the rest
    have htail : '<' :: (body ++ '>' :: (more ++ after)) = rest := by
      rw [← hafter]
      simp
    clear hafter
    cases h with
    | ended => cases htail
    | stray hopen => exact absurd (List.cons.inj htail).1.symm hopen
    | @reopened body' rest hbody' =>
      have hinner := (List.cons.inj htail).2
      obtain ⟨-, hbracket, -⟩ := inner_append_inj hbody hbody' (by decide) (by decide) hinner
      exact absurd hbracket (by decide)
    | unclosed hbody' =>
      have hmem : '>' ∈ body ++ '>' :: (more ++ after) := by simp
      rw [(List.cons.inj htail).2] at hmem
      exact absurd rfl (isInner_iff.mp (hbody' _ hmem)).2

/-- Only where there is no rest there is no fault. -/
theorem Stops.eq_none_iff (h : Stops offset rest fault) : fault = none ↔ rest = [] := by
  cases h <;> simp

end

/-! ### Dividing a text -/

namespace Divides

variable {found : Scan} {offset : Nat} {text read rest : List Char}

/-- Nothing can be read of a text at which the reading stops. -/
theorem of_stops {fault : Option ParseError} (h : Stops offset text fault) :
    Divides ⟨[], fault⟩ offset text [] text where
  text_eq := rfl
  spaced := .nil
  stops := h
  longest := fun _ hfirst hbegins => by rw [h.eq_nil_of_whole hfirst hbegins]

/-- A blank can be read. -/
theorem blank {c : Char} (hblank : Text.isBlank c)
    (h : Divides found (offset + c.utf8Size) text read rest) :
    Divides found offset (c :: text) (c :: read) rest where
  text_eq := by rw [h.text_eq, List.cons_append]
  spaced := .blank hblank h.spaced
  stops := by
    have hstops := h.stops
    rwa [Nat.add_assoc] at hstops
  longest := by
    intro first hfirst hbegins
    rcases List.prefix_cons_iff.mp hbegins with rfl | ⟨more, rfl, hmore⟩
    · exact List.nil_prefix
    · have hwhole := (whole_blank_iff hblank).mp hfirst
      exact List.cons_prefix_cons.mpr ⟨rfl, h.longest more hwhole hmore⟩

/-- A whole symbol can be read. -/
theorem symbol {body : List Char} (hbody : ∀ d ∈ body, isInner d)
    (h : Divides found (offset + '<'.utf8Size + byteCount body + '>'.utf8Size) text read rest) :
    Divides (found.cons body) offset ('<' :: (body ++ '>' :: text)) ('<' :: (body ++ '>' :: read))
      rest where
  text_eq := by rw [h.text_eq]; simp
  spaced := .symbol hbody h.spaced
  stops := by
    have hcount : byteCount ('<' :: (body ++ '>' :: read)) =
        '<'.utf8Size + byteCount body + '>'.utf8Size + byteCount read := by
      simp [byteCount, Nat.add_assoc]
    have hstops : Stops _ rest (found.cons body).fault := h.stops
    rw [hcount]
    simpa only [Nat.add_assoc] using hstops
  longest := by
    rintro first hfirst ⟨after, hafter⟩
    cases hfirst with
    | nil => exact List.nil_prefix
    | blank hblank => exact absurd (List.cons.inj hafter).1 (not_isBlank_of_bracket hblank).2
    | @symbol body' more hbody' hmore =>
      have htail : body' ++ '>' :: (more ++ after) = body ++ '>' :: text := by
        simpa using hafter
      obtain ⟨rfl, -, rfl⟩ := inner_append_inj hbody' hbody (by decide) (by decide) htail
      obtain ⟨last, rfl⟩ := h.longest more hmore (List.prefix_append more after)
      exact ⟨last, by simp⟩

/-- Only a text of nothing but whole symbols and blanks is without fault. -/
theorem fault_eq_none_iff (h : Divides found offset text read rest) :
    found.fault = none ↔ Whole text := by
  rw [h.stops.eq_none_iff]
  constructor
  · rintro rfl
    rw [h.text_eq, List.append_nil]
    exact h.spaced.whole
  · intro hwhole
    have hlength := (h.longest text hwhole (List.prefix_refl text)).length_le
    rw [h.text_eq, List.length_append] at hlength
    exact List.eq_nil_of_length_eq_zero (by omega)

end Divides

/-- **A text is read as far as it consists of whole symbols and blanks.** -/
theorem tokenize_divides (offset : Nat) {text : List Char} (hslash : '/' ∉ text) :
    ∃ read rest, (tokenize offset text).Divides offset text read rest := by
  induction text using textInduction generalizing offset with
  | nil =>
    rw [tokenize_nil]
    exact ⟨[], [], .of_stops .ended⟩
  | comment cs => exact absurd List.mem_cons_self hslash
  | blank c cs hc hopen hblank ih =>
    rw [tokenize_blank hc hopen hblank]
    obtain ⟨read, rest, h⟩ :=
      ih (offset + c.utf8Size) fun hcs => hslash (List.mem_cons_of_mem c hcs)
    exact ⟨c :: read, rest, h.blank hblank⟩
  | stray c cs hc hopen hblank =>
    rw [tokenize_stray hc hopen hblank]
    exact ⟨[], _, .of_stops (.stray hopen hblank)⟩
  | unclosed body hbody =>
    rw [tokenize_unclosed hbody]
    exact ⟨[], _, .of_stops (.unclosed hbody)⟩
  | reopened body rest hbody =>
    rw [tokenize_reopened hbody, Nat.add_assoc]
    exact ⟨[], _, .of_stops (.reopened hbody)⟩
  | symbol body rest hbody ih =>
    rw [tokenize_symbol hbody]
    obtain ⟨read, rest', h⟩ := ih _ fun hrest => hslash (by simp [hrest])
    exact ⟨_, rest', h.symbol hbody⟩

/-- Every fault of a scan ends the reading. -/
theorem isStructural_of_ofChars {offset : Nat} {current : Option Open} {text : List Char}
    {e : ParseError} (h : (ofChars offset current text).fault = some e) : e.isStructural := by
  induction text generalizing offset current with
  | nil =>
    obtain ⟨o, -, rfl⟩ := Option.map_eq_some_iff.mp h
    rfl
  | cons c text ih =>
    unfold ofChars at h
    dsimp only at h
    split at h
    · cases h
    rcases current with - | o
    · dsimp only at h
      split at h
      · exact ih h
      · split at h
        · exact ih h
        · cases h
          rfl
    · dsimp only at h
      split at h
      · cases h
        rfl
      · split at h
        · exact ih h
        · exact ih h

end Scan

variable {α ρ : Type} [Scalar α] [Numeral α] [RandomSource ρ α]

/-- **Reading accepts exactly the texts of whole symbols and blanks.**  Of any text without slashes
the longest beginning of this form is read, and its symbols are found in order as they are written,
of whatever kinds and with whatever arguments.  What follows is reported as one fault, the last one
and the only one that ends the reading; it is reported unless nothing follows, that is, unless the
whole text has this form. -/
theorem parse_divides (text : String) (hslash : '/' ∉ text.toList) (s : ρ) :
    ∃ (found : Scan) (read rest : List Char),
      found.Divides 0 text.toList read rest ∧
      (parse text s).1.tokens.map Token.raw = found.bodies.map Token.rawOfBody ∧
      (∃ errors, (parse text s).1.errors = errors ++ found.fault.toList ∧
        (∀ e ∈ errors, e.isStructural = false) ∧ ∀ e, found.fault = some e → e.isStructural) ∧
      ((∀ e ∈ (parse text s).1.errors, e.isStructural = false) ↔ Scan.Whole text.toList) := by
  have hslashed : ¬ Scan.Slashed text.toList := by
    rintro ⟨read, body, rest, -, -, htext⟩
    exact hslash (by simp [htext])
  obtain ⟨read, rest, hdivides⟩ := Scan.tokenize_divides 0 hslash
  rw [← Scan.ofChars_eq_tokenize 0 hslashed] at hdivides
  have hstructural (e : ParseError) (he : (scan text.toList).fault = some e) : e.isStructural :=
    Scan.isStructural_of_ofChars he
  refine ⟨scan text.toList, read, rest, hdivides, ?_, ⟨_, rfl, ?_, hstructural⟩, ?_⟩
  · exact Token.map_raw_ofBodies _ s
  · exact fun e he => Token.isStructural_of_ofBodies he
  · rw [← hdivides.fault_eq_none_iff]
    exact Scan.isStructural_read_iff hstructural s

/-- A symbol of no kind, a blank of two bytes, a placeholder that is not closed, and a character
that stands outside: both symbols are found, and the longest beginning ends before the character. -/
theorem parse_divides_stray :
    '/' ∉ "<thing Ä>\u00a0<m Move(R[1)>x".toList ∧
    (parse "<thing Ä>\u00a0<m Move(R[1)>x" (Xoroshiro.ofSeed 1)).1.tokens.map Token.raw =
      ["<thing Ä>", "<m Move(R[1)>"] ∧
    (parse "<thing Ä>\u00a0<m Move(R[1)>x" (Xoroshiro.ofSeed 1)).1.errors =
      [.unknownKind "thing" "<thing Ä>", .malformedRandom "R[1", .missingOpen 25 'x'] ∧
    ¬ Scan.Whole "<thing Ä>\u00a0<m Move(R[1)>x".toList := by
  have hslash : '/' ∉ "<thing Ä>\u00a0<m Move(R[1)>x".toList := by decide +kernel
  have herrors : (parse "<thing Ä>\u00a0<m Move(R[1)>x" (Xoroshiro.ofSeed 1)).1.errors =
      [.unknownKind "thing" "<thing Ä>", .malformedRandom "R[1", .missingOpen 25 'x'] := by
    decide +kernel
  refine ⟨hslash, by decide +kernel, herrors, ?_⟩
  obtain ⟨-, -, -, -, -, -, hwhole⟩ := parse_divides _ hslash (Xoroshiro.ofSeed 1)
  rw [← hwhole, herrors]
  simp [ParseError.isStructural]

/-! ### Reading what was written -/

/-- Reading a text is reading what is cut out of it. -/
theorem parse_eq_read (text : String) (s : ρ) : parse text s = (scan text.toList).read s := rfl

/-- **What was read and is written down is read again**, from any text: the same symbols with
the same arguments, for which the source draws the same numbers, and the same errors but for the
one that ended the reading. -/
theorem parse_render_parse (text : String) (s : ρ) :
    parse (render (parse text s).1.tokens) s =
      (⟨(parse text s).1.tokens, (parse text s).1.errors.filter (!·.isStructural)⟩,
        (parse text s).2) := by
  have hplain : ∀ body ∈ (scan text.toList).bodies, Scan.Plain body :=
    Scan.plain_of_mem (by simp)
  have hraw : (parse text s).1.tokens.map Token.raw =
      (scan text.toList).bodies.map Token.rawOfBody :=
    Token.map_raw_ofBodies _ s
  have hscan :
      scan (render (parse text s).1.tokens).toList = ⟨(scan text.toList).bodies, none⟩ := by
    rw [Token.toList_render hraw]
    exact Scan.ofChars_spelled 0 hplain
  rw [parse_eq_read (render _), hscan, parse_eq_read]
  generalize hfound : scan text.toList = found
  have hfault (e : ParseError) (he : found.fault = some e) : e.isStructural :=
    Scan.isStructural_of_ofChars (hfound ▸ he)
  have hkept : ((Token.ofBodies found.bodies s).1.errors).filter (!·.isStructural) =
      (Token.ofBodies found.bodies s).1.errors := by
    refine List.filter_eq_self.mpr fun e he => ?_
    simp [Token.isStructural_of_ofBodies he]
  have hdropped : found.fault.toList.filter (!·.isStructural) = [] := by
    refine List.filter_eq_nil_iff.mpr fun e he => ?_
    simp [hfault e (Option.mem_toList.mp he)]
  simp only [Scan.read, List.filter_append, hkept, hdropped, Option.toList_none, List.append_nil]

end SpatialGrammar
