/-
SpatialGrammar/Proofs/Comments.lean

Slashes inside symbols.

A slash is meant to begin a comment between symbols and to be a character like any other
inside one.  `Scan.tokenize` reads a text in this way, a symbol at a time: every opening
bracket before the first comment opens a symbol that it gives, or else it reports a fault
(`Scan.tokenize_opens`).

`scan` takes a slash for a comment wherever it stands.  It agrees as long as no slash stands
inside a symbol (`Scan.ofChars_eq_tokenize`).  Otherwise it drops the symbol and all that
follows, and reports nothing (`Scan.not_opens_of_slashed`).
-/
import Mathlib.Data.List.TakeWhile
import SpatialGrammar.Decimal.Layout
import SpatialGrammar.Proofs.Spelling
import SpatialGrammar.Random.Xoroshiro

namespace SpatialGrammar

namespace Scan

/-! ### Reading a symbol at a time -/

/-- Whether a character may stand inside brackets. -/
def isInner (c : Char) : Bool := c ≠ '<' && c ≠ '>'

/-- The symbols of a text that starts at byte `offset` and the fault that ended the reading, where a
slash begins a comment only if no symbol is open. -/
def tokenize (offset : Nat) : List Char → Scan
  | [] => ⟨[], none⟩
  | c :: cs =>
    if c = '/' then ⟨[], none⟩
    else if c = '<' then
      let body := cs.takeWhile isInner
      let stop := offset + c.utf8Size + byteCount body
      match _ : cs.dropWhile isInner with
      | [] => ⟨[], some (.unclosed offset)⟩
      | d :: rest =>
        if d = '<' then ⟨[], some (.unexpectedOpen stop)⟩
        else (tokenize (stop + d.utf8Size) rest).cons body
    else if Text.isBlank c then tokenize (offset + c.utf8Size) cs
    else ⟨[], some (.missingOpen offset c)⟩
termination_by text => text.length
decreasing_by
  · have hlength := (List.dropWhile_suffix isInner (l := cs)).length_le
    simp_all
    omega
  · simp

/-- A text of blanks and whole symbols. -/
inductive Whole : List Char → Prop
  | nil : Whole []
  | blank {c : Char} {text : List Char} (hblank : Text.isBlank c) (h : Whole text) :
      Whole (c :: text)
  | symbol {body text : List Char} (hbody : ∀ d ∈ body, isInner d) (h : Whole text) :
      Whole ('<' :: (body ++ '>' :: text))

/-- No comment begins in the text: no slash follows whole symbols. -/
def Uncommented (text : List Char) : Prop := ∀ read rest, text = read ++ '/' :: rest → ¬ Whole read

/-- A slash stands inside a symbol that was opened after whole symbols. -/
def Slashed (text : List Char) : Prop :=
  ∃ read body rest, Whole read ∧ (∀ d ∈ body, isInner d) ∧
    text = read ++ '<' :: (body ++ '/' :: rest)

/-- If there is no fault, every opening bracket before the first comment opens a symbol of the
scan: that whose number is the number of opening brackets before. -/
def Opens (found : Scan) (text : List Char) : Prop :=
  found.fault = none → ∀ before after, text = before ++ '<' :: after → Uncommented before →
    ∃ body, found.bodies[before.count '<']? = some body ∧ body ++ ['>'] <+: after

/-! ### Taking texts apart -/

theorem isInner_iff {c : Char} : isInner c ↔ c ≠ '<' ∧ c ≠ '>' := by
  simp [isInner]

/-- The text up to the next bracket. -/
theorem takeWhile_inner {body : List Char} (hbody : ∀ d ∈ body, isInner d) {d : Char}
    (hd : isInner d = false) (rest : List Char) :
    (body ++ d :: rest).takeWhile isInner = body ∧
      (body ++ d :: rest).dropWhile isInner = d :: rest := by
  rw [List.takeWhile_append_of_pos hbody, List.dropWhile_append_of_pos hbody,
    List.takeWhile_cons_of_neg (by simp [hd]), List.dropWhile_cons_of_neg (by simp [hd]),
    List.append_nil]
  exact ⟨rfl, rfl⟩

/-- Up to their first brackets two texts are the same if they are the same. -/
theorem inner_append_inj {body body' rest rest' : List Char} {d d' : Char}
    (hbody : ∀ c ∈ body, isInner c) (hbody' : ∀ c ∈ body', isInner c) (hd : isInner d = false)
    (hd' : isInner d' = false) (h : body ++ d :: rest = body' ++ d' :: rest') :
    body = body' ∧ d = d' ∧ rest = rest' := by
  obtain ⟨htake, hdrop⟩ := takeWhile_inner hbody hd rest
  obtain ⟨htake', hdrop'⟩ := takeWhile_inner hbody' hd' rest'
  rw [h] at htake hdrop
  exact ⟨htake.symm.trans htake', List.cons.inj (hdrop.symm.trans hdrop')⟩

/-- The ways in which a text can begin, between symbols. -/
@[elab_as_elim]
theorem textInduction {motive : List Char → Prop} (nil : motive [])
    (comment : ∀ cs, motive ('/' :: cs))
    (blank : ∀ c cs, c ≠ '/' → c ≠ '<' → Text.isBlank c → motive cs → motive (c :: cs))
    (stray : ∀ c cs, c ≠ '/' → c ≠ '<' → ¬ Text.isBlank c → motive (c :: cs))
    (unclosed : ∀ body, (∀ d ∈ body, isInner d) → motive ('<' :: body))
    (reopened : ∀ body rest, (∀ d ∈ body, isInner d) → motive ('<' :: (body ++ '<' :: rest)))
    (symbol : ∀ body rest, (∀ d ∈ body, isInner d) → motive rest →
      motive ('<' :: (body ++ '>' :: rest)))
    (text : List Char) : motive text := by
  induction hn : text.length using Nat.strong_induction_on generalizing text with
  | _ n ih =>
  rcases text with - | ⟨c, cs⟩
  · exact nil
  by_cases hslash : c = '/'
  · exact hslash ▸ comment cs
  by_cases hopen : c = '<'
  · subst hopen
    have hbody : ∀ d ∈ cs.takeWhile isInner, isInner d := fun _ hd => List.mem_takeWhile_imp hd
    have hcs := List.takeWhile_append_dropWhile (p := isInner) (l := cs)
    rcases hrest : cs.dropWhile isInner with - | ⟨d, rest⟩
    · rw [hrest, List.append_nil] at hcs
      exact unclosed cs (hcs ▸ hbody)
    · rw [hrest] at hcs
      have hd : ¬ isInner d := by
        have hhead := List.head_dropWhile_not isInner (l := cs) (by simp [hrest])
        simpa [hrest] using hhead
      rw [← hcs]
      by_cases hd' : d = '<'
      · exact hd' ▸ reopened _ rest hbody
      · obtain rfl : d = '>' := by
          rw [isInner_iff] at hd
          simpa [hd'] using hd
        refine symbol _ rest hbody (ih rest.length ?_ rest rfl)
        rw [← hn, ← hcs]
        simp
        omega
  · by_cases hblank : Text.isBlank c
    · exact blank c cs hslash hopen hblank (ih cs.length (by simp [← hn]) cs rfl)
    · exact stray c cs hslash hopen hblank

section Tokenize

variable {offset : Nat} {c : Char} {body rest : List Char}

@[simp] theorem tokenize_nil : tokenize offset [] = ⟨[], none⟩ := by
  rw [tokenize]

@[simp] theorem tokenize_comment : tokenize offset ('/' :: rest) = ⟨[], none⟩ := by
  rw [tokenize, if_pos rfl]

theorem tokenize_blank (hslash : c ≠ '/') (hopen : c ≠ '<') (hblank : Text.isBlank c) :
    tokenize offset (c :: rest) = tokenize (offset + c.utf8Size) rest := by
  rw [tokenize, if_neg hslash, if_neg hopen, if_pos hblank]

theorem tokenize_stray (hslash : c ≠ '/') (hopen : c ≠ '<') (hblank : ¬ Text.isBlank c) :
    tokenize offset (c :: rest) = ⟨[], some (.missingOpen offset c)⟩ := by
  rw [tokenize, if_neg hslash, if_neg hopen, if_neg hblank]

theorem tokenize_unclosed (hbody : ∀ d ∈ body, isInner d) :
    tokenize offset ('<' :: body) = ⟨[], some (.unclosed offset)⟩ := by
  rw [tokenize, if_neg (by decide), if_pos rfl]
  split
  · rfl
  · next d rest h =>
    rw [List.dropWhile_eq_nil_iff.mpr hbody] at h
    cases h

theorem tokenize_reopened (hbody : ∀ d ∈ body, isInner d) :
    tokenize offset ('<' :: (body ++ '<' :: rest)) =
      ⟨[], some (.unexpectedOpen (offset + '<'.utf8Size + byteCount body))⟩ := by
  obtain ⟨htake, hdrop⟩ := takeWhile_inner hbody (d := '<') (by decide) rest
  rw [tokenize, if_neg (by decide), if_pos rfl]
  split
  · next h => rw [hdrop] at h; cases h
  · next d rest' h =>
    rw [hdrop] at h
    cases h
    rw [htake]
    rfl

theorem tokenize_symbol (hbody : ∀ d ∈ body, isInner d) :
    tokenize offset ('<' :: (body ++ '>' :: rest)) =
      (tokenize (offset + '<'.utf8Size + byteCount body + '>'.utf8Size) rest).cons body := by
  obtain ⟨htake, hdrop⟩ := takeWhile_inner hbody (d := '>') (by decide) rest
  rw [tokenize, if_neg (by decide), if_pos rfl]
  split
  · next h => rw [hdrop] at h; cases h
  · next d rest' h =>
    rw [hdrop] at h
    cases h
    rw [htake, if_neg (by decide)]

end Tokenize

/-! ### Whole symbols and comments -/

theorem not_isBlank_of_bracket {c : Char} (h : Text.isBlank c) : c ≠ '/' ∧ c ≠ '<' := by
  constructor <;> rintro rfl <;> exact absurd h (by decide)

theorem whole_blank_iff {c : Char} {text : List Char} (hblank : Text.isBlank c) :
    Whole (c :: text) ↔ Whole text := by
  constructor
  · intro h
    cases h with
    | blank _ h => exact h
    | symbol => exact absurd rfl (not_isBlank_of_bracket hblank).2
  · exact .blank hblank

theorem uncommented_nil : Uncommented [] := by
  intro read rest h
  simp at h

theorem uncommented_blank_iff {c : Char} {text : List Char} (hblank : Text.isBlank c) :
    Uncommented (c :: text) ↔ Uncommented text := by
  constructor
  · rintro h read rest rfl hread
    exact h (c :: read) rest rfl (.blank hblank hread)
  · intro h read rest htext hread
    rcases List.cons_eq_append_iff.mp htext with ⟨rfl, hslash⟩ | ⟨read', rfl, rfl⟩
    · obtain ⟨rfl, -⟩ := List.cons.inj hslash
      exact absurd rfl (not_isBlank_of_bracket hblank).1
    · exact h read' rest rfl ((whole_blank_iff hblank).mp hread)

theorem uncommented_symbol_iff {body text : List Char} (hbody : ∀ d ∈ body, isInner d) :
    Uncommented ('<' :: (body ++ '>' :: text)) ↔ Uncommented text := by
  constructor
  · rintro h read rest rfl hread
    exact h ('<' :: (body ++ '>' :: read)) rest (by simp) (.symbol hbody hread)
  · intro h read rest htext hread
    cases hread with
    | nil => simp at htext
    | blank hblank =>
      obtain ⟨rfl, -⟩ := List.cons.inj htext
      exact absurd rfl (not_isBlank_of_bracket hblank).2
    | @symbol body' read hbody' hread =>
      have htail : body ++ '>' :: text = body' ++ '>' :: (read ++ '/' :: rest) := by
        simpa using htext
      obtain ⟨-, -, rfl⟩ := inner_append_inj hbody hbody' (by decide) (by decide) htail
      exact h read rest rfl hread

theorem Slashed.blank {c : Char} {text : List Char} (hblank : Text.isBlank c) (h : Slashed text) :
    Slashed (c :: text) := by
  obtain ⟨read, body, rest, hread, hbody, rfl⟩ := h
  exact ⟨c :: read, body, rest, .blank hblank hread, hbody, rfl⟩

theorem Slashed.symbol {body text : List Char} (hbody : ∀ d ∈ body, isInner d) (h : Slashed text) :
    Slashed ('<' :: (body ++ '>' :: text)) := by
  obtain ⟨read, body', rest, hread, hbody', rfl⟩ := h
  exact ⟨_, body', rest, .symbol hbody hread, hbody', by simp⟩

theorem slashed_of_mem {body : List Char} (hbody : ∀ d ∈ body, isInner d) (h : '/' ∈ body)
    (rest : List Char) : Slashed ('<' :: (body ++ rest)) := by
  obtain ⟨first, last, rfl⟩ := List.append_of_mem h
  refine ⟨[], first, last ++ rest, .nil, ?_, by simp⟩
  exact fun d hd => hbody d (List.mem_append_left _ hd)

/-! ### Where both readings agree -/

theorem ofChars_blank (offset : Nat) {c : Char} (hblank : Text.isBlank c) (rest : List Char) :
    ofChars offset none (c :: rest) = ofChars (offset + c.utf8Size) none rest := by
  obtain ⟨hslash, hopen⟩ := not_isBlank_of_bracket hblank
  rw [ofChars, if_neg hslash, if_neg hopen, if_pos hblank]

theorem plain_of_inner {body : List Char} (hbody : ∀ d ∈ body, isInner d) (hslash : '/' ∉ body) :
    Plain body := by
  intro d hd
  obtain ⟨hopen, hclose⟩ := isInner_iff.mp (hbody d hd)
  exact ⟨hopen, hclose, fun h => hslash (h ▸ hd)⟩

/-- **Without a slash inside a symbol, both readings agree.** -/
theorem ofChars_eq_tokenize (offset : Nat) {text : List Char} (h : ¬ Slashed text) :
    ofChars offset none text = tokenize offset text := by
  have hplain : ∀ {body rest : List Char}, (∀ d ∈ body, isInner d) →
      ¬ Slashed ('<' :: (body ++ rest)) → Plain body :=
    fun hbody h => plain_of_inner hbody fun hslash => h (slashed_of_mem hbody hslash _)
  induction text using textInduction generalizing offset with
  | nil => rw [tokenize_nil]; rfl
  | comment cs => rw [tokenize_comment, ofChars, if_pos rfl]
  | blank c cs hslash hopen hblank ih =>
    rw [tokenize_blank hslash hopen hblank, ofChars_blank _ hblank,
      ih _ fun hcs => h (hcs.blank hblank)]
  | stray c cs hslash hopen hblank =>
    rw [tokenize_stray hslash hopen hblank, ofChars, if_neg hslash, if_neg hopen, if_neg hblank]
  | unclosed body hbody =>
    have hinner : Plain body := hplain hbody (List.append_nil body ▸ h)
    have hend := ofChars_plain (offset + '<'.utf8Size) ⟨offset, []⟩ [] hinner
    rw [List.append_nil] at hend
    rw [tokenize_unclosed hbody, ofChars_bracket, hend]
    rfl
  | reopened body rest hbody =>
    rw [tokenize_reopened hbody, ofChars_bracket, ofChars_plain _ _ _ (hplain hbody h), ofChars,
      if_neg (by decide), if_pos rfl]
  | symbol body rest hbody ih =>
    rw [tokenize_symbol hbody, ofChars_symbol _ (hplain hbody h),
      ih _ fun hrest => h (hrest.symbol hbody)]

/-! ### Which brackets open symbols -/

/-- **Read a symbol at a time, every bracket before the first comment opens a symbol.** -/
theorem tokenize_opens (offset : Nat) (text : List Char) : Opens (tokenize offset text) text := by
  intro hfault before after htext hbefore
  induction text using textInduction generalizing offset before with
  | nil => simp at htext
  | comment cs =>
    rcases List.cons_eq_append_iff.mp htext with ⟨rfl, hopen⟩ | ⟨before', rfl, -⟩
    · simp at hopen
    · exact absurd .nil (hbefore [] before' rfl)
  | blank c cs hslash hopen hblank ih =>
    rw [tokenize_blank hslash hopen hblank] at hfault ⊢
    rcases List.cons_eq_append_iff.mp htext with ⟨rfl, h⟩ | ⟨before', rfl, rfl⟩
    · exact absurd (List.cons.inj h).1.symm hopen
    · rw [List.count_cons_of_ne hopen]
      exact ih _ hfault before' rfl ((uncommented_blank_iff hblank).mp hbefore)
  | stray c cs hslash hopen hblank =>
    rw [tokenize_stray hslash hopen hblank] at hfault
    cases hfault
  | unclosed body hbody =>
    rw [tokenize_unclosed hbody] at hfault
    cases hfault
  | reopened body rest hbody =>
    rw [tokenize_reopened hbody] at hfault
    cases hfault
  | symbol body rest hbody ih =>
    rw [tokenize_symbol hbody] at hfault ⊢
    have hnone : '<' ∉ body := fun h => (isInner_iff.mp (hbody _ h)).1 rfl
    rcases List.cons_eq_append_iff.mp htext with ⟨rfl, h⟩ | ⟨before', rfl, h⟩
    · refine ⟨body, rfl, rest, ?_⟩
      rw [(List.cons.inj h).2]
      simp
    · -- the bracket stands after the symbol
      obtain ⟨before'', rfl, rfl⟩ : ∃ b, before' = body ++ '>' :: b ∧ rest = b ++ '<' :: after := by
        rcases List.append_eq_append_iff.mp h with ⟨b, rfl, hb⟩ | ⟨b, rfl, hb⟩
        · rcases List.cons_eq_append_iff.mp hb with ⟨rfl, hb⟩ | ⟨b, rfl, rfl⟩
          · simp at hb
          · exact ⟨b, rfl, rfl⟩
        · rcases List.cons_eq_append_iff.mp hb with ⟨rfl, hb⟩ | ⟨b, rfl, rfl⟩
          · simp at hb
          · exact absurd (by simp) hnone
      have hcount : ('<' :: (body ++ '>' :: before'')).count '<' = before''.count '<' + 1 := by
        simp [List.count_append, List.count_eq_zero.mpr hnone]
      rw [hcount]
      exact ih _ hfault before'' rfl ((uncommented_symbol_iff hbody).mp hbefore)

/-- A slash ends the reading inside a symbol too. -/
theorem ofChars_slash (offset : Nat) {body : List Char} (hbody : ∀ d ∈ body, isInner d)
    (hslash : '/' ∈ body) (rest : List Char) :
    ofChars offset none ('<' :: (body ++ rest)) = ⟨[], none⟩ := by
  obtain ⟨first, last, rfl, hfirst⟩ := List.eq_append_cons_of_mem hslash
  have hplain : Plain first :=
    plain_of_inner (fun d hd => hbody d (List.mem_append_left _ hd)) hfirst
  rw [ofChars_bracket, List.append_assoc, ofChars_plain _ _ _ hplain, List.cons_append, ofChars,
    if_pos rfl]

/-- **The symbol around a slash is missing, and no fault is reported.** -/
theorem not_opens_of_slashed (offset : Nat) {text : List Char} (h : Slashed text) :
    ¬ Opens (ofChars offset none text) text := by
  obtain ⟨read, body, rest, hread, hbody, rfl⟩ := h
  -- the symbol that is missing is the one opened after `before`
  obtain ⟨hfault, before, after, htext, hbefore, hlength⟩ :
      let found := ofChars offset none (read ++ '<' :: (body ++ '/' :: rest))
      found.fault = none ∧ ∃ before after,
        read ++ '<' :: (body ++ '/' :: rest) = before ++ '<' :: after ∧ Uncommented before ∧
          found.bodies.length ≤ before.count '<' := by
    induction hread generalizing offset with
    | nil =>
      have hslashed : ∀ d ∈ body ++ ['/'], isInner d := by
        simpa [or_imp, forall_and] using ⟨hbody, by decide⟩
      have hstop := ofChars_slash offset hslashed (by simp) rest
      rw [List.append_assoc, List.singleton_append] at hstop
      rw [List.nil_append, hstop]
      exact ⟨rfl, [], _, rfl, uncommented_nil, Nat.le_refl 0⟩
    | @blank c read hblank hread ih =>
      rw [List.cons_append, ofChars_blank _ hblank]
      obtain ⟨hfault, before, after, htext, hbefore, hlength⟩ := ih (offset + c.utf8Size)
      refine ⟨hfault, c :: before, after, by rw [htext, List.cons_append],
        (uncommented_blank_iff hblank).mpr hbefore, ?_⟩
      rwa [List.count_cons_of_ne (not_isBlank_of_bracket hblank).2]
    | @symbol inner read hinner hread ih =>
      have hassoc : '<' :: (inner ++ '>' :: read) ++ '<' :: (body ++ '/' :: rest) =
          '<' :: (inner ++ '>' :: (read ++ '<' :: (body ++ '/' :: rest))) := by simp
      rw [hassoc]
      by_cases hslash : '/' ∈ inner
      · rw [ofChars_slash offset hinner hslash]
        exact ⟨rfl, [], _, rfl, uncommented_nil, Nat.le_refl 0⟩
      · rw [ofChars_symbol _ (plain_of_inner hinner hslash)]
        obtain ⟨hfault, before, after, htext, hbefore, hlength⟩ := ih _
        refine ⟨hfault, '<' :: (inner ++ '>' :: before), after, by rw [htext]; simp,
          (uncommented_symbol_iff hinner).mpr hbefore, ?_⟩
        have hcount : before.count '<' + 1 ≤ ('<' :: (inner ++ '>' :: before)).count '<' := by
          simp [List.count_append]
        exact (Nat.succ_le_succ hlength).trans hcount
  intro hopens
  obtain ⟨body', hbody', -⟩ := hopens hfault before after htext hbefore
  rw [List.getElem?_eq_none hlength] at hbody'
  cases hbody'

theorem isStructural_of_tokenize {offset : Nat} {text : List Char} {e : ParseError}
    (h : (tokenize offset text).fault = some e) : e.isStructural := by
  induction text using textInduction generalizing offset with
  | nil => rw [tokenize_nil] at h; cases h
  | comment cs => rw [tokenize_comment] at h; cases h
  | blank c cs hslash hopen hblank ih => rw [tokenize_blank hslash hopen hblank] at h; exact ih h
  | stray c cs hslash hopen hblank => rw [tokenize_stray hslash hopen hblank] at h; cases h; rfl
  | unclosed body hbody => rw [tokenize_unclosed hbody] at h; cases h; rfl
  | reopened body rest hbody => rw [tokenize_reopened hbody] at h; cases h; rfl
  | symbol body rest hbody ih => rw [tokenize_symbol hbody] at h; exact ih h

end Scan

/-! ### Symbols and what is reported -/

variable {α ρ : Type} [Scalar α] [Numeral α] [RandomSource ρ α]

/-- A placeholder that is left as it is does not end the reading. -/
theorem Placeholder.isStructural_of_replace {inside : List Char} {s : ρ} {e : ParseError}
    (h : e ∈ (replace inside s).1.errors) : e.isStructural = false := by
  unfold replace at h
  split at h
  · simp at h
  · obtain rfl := List.mem_singleton.mp h
    rfl

theorem Placeholder.isStructural_of_resolveFrom {current : Option (List Char)} {text : List Char}
    {s : ρ} {e : ParseError} (h : e ∈ (resolveFrom current text s).1.errors) :
    e.isStructural = false := by
  fun_induction resolveFrom current text s with
  | case1 s => simp at h
  | case2 reversed s fragment =>
    obtain rfl := List.mem_singleton.mp h
    rfl
  | case3 cs s ih => exact ih h
  | case4 c cs s _ rest s' hrest ih => exact ih (hrest ▸ h)
  | case5 reversed cs s first s₁ hfirst rest s₂ hrest ih =>
    rcases List.mem_append.mp h with h | h
    · have hmem : e ∈ (replace reversed.reverse s).1.errors := by rwa [hfirst]
      exact isStructural_of_replace hmem
    · exact ih (hrest ▸ h)
  | case6 reversed c cs s _ ih => exact ih h

namespace Token

/-- No fault in a symbol ends the reading. -/
theorem isStructural_of_ofBody {body : List Char} {s : ρ} {e : ParseError}
    (h : e ∈ (ofBody body s).1.2) : e.isStructural = false := by
  have hkind : ∀ {kind : SymbolKind} {word raw : String},
      e ∈ (if kind = .invalid then [.unknownKind word raw] else []) → e.isStructural = false := by
    intro kind word raw h
    split at h
    · obtain rfl := List.mem_singleton.mp h
      rfl
    · cases h
  unfold ofBody at h
  dsimp only at h
  split at h
  · exact hkind h
  · rcases List.mem_append.mp h with h | h
    · exact hkind h
    · exact Placeholder.isStructural_of_resolveFrom h

theorem isStructural_of_ofBodies {bodies : List (List Char)} {s : ρ} {e : ParseError}
    (h : e ∈ (ofBodies bodies s).1.errors) : e.isStructural = false := by
  induction bodies generalizing s with
  | nil => simp [ofBodies] at h
  | cons body bodies ih =>
    rcases List.mem_append.mp h with h | h
    · exact isStructural_of_ofBody h
    · exact ih h

theorem map_raw_ofBodies (bodies : List (List Char)) (s : ρ) :
    (ofBodies bodies s).1.tokens.map raw = bodies.map rawOfBody := by
  have hreading := congrArg (List.map Prod.fst) (map_reading_ofBodies bodies s)
  rwa [List.map_map, List.map_map] at hreading

end Token

/-- The symbols of a scan, and what is wrong with them before the fault of the scan. -/
def Scan.read (found : Scan) (s : ρ) : Parse × ρ :=
  let (p, s) := Token.ofBodies found.bodies s
  ({ p with errors := p.errors ++ found.fault.toList }, s)

/-- If nothing is reported that ends the reading, every opening bracket before the first comment
opens one of the symbols. -/
def Parse.Opens (p : Parse) (text : List Char) : Prop :=
  (∀ e ∈ p.errors, e.isStructural = false) →
    ∀ before after, text = before ++ '<' :: after → Scan.Uncommented before →
      ∃ token, p.tokens[before.count '<']? = some token ∧ token.raw.toList <+: '<' :: after

namespace Scan

/-- Symbols stand where they were cut out. -/
theorem exists_token_iff (found : Scan) (s : ρ) (i : Nat) (after : List Char) :
    (∃ token, (found.read s).1.tokens[i]? = some token ∧ token.raw.toList <+: '<' :: after) ↔
      ∃ body, found.bodies[i]? = some body ∧ body ++ ['>'] <+: after := by
  have hraw : ((found.read s).1.tokens[i]?).map Token.raw =
      (found.bodies[i]?).map Token.rawOfBody := by
    rw [← List.getElem?_map, ← List.getElem?_map]
    exact congrArg (·[i]?) (Token.map_raw_ofBodies found.bodies s)
  have htext : ∀ body,
      (Token.rawOfBody body).toList <+: '<' :: after ↔ body ++ ['>'] <+: after := by
    simp [Token.rawOfBody]
  constructor
  · rintro ⟨token, htoken, hprefix⟩
    rw [htoken] at hraw
    obtain ⟨body, hbody, hequal⟩ := Option.map_eq_some_iff.mp hraw.symm
    exact ⟨body, hbody, (htext body).mp (hequal ▸ hprefix)⟩
  · rintro ⟨body, hbody, hprefix⟩
    rw [hbody] at hraw
    obtain ⟨token, htoken, hequal⟩ := Option.map_eq_some_iff.mp hraw
    exact ⟨token, htoken, hequal ▸ (htext body).mpr hprefix⟩

/-- Only the fault of a scan is reported as one that ends the reading. -/
theorem isStructural_read_iff {found : Scan} (hfault : ∀ e, found.fault = some e → e.isStructural)
    (s : ρ) : (∀ e ∈ (found.read s).1.errors, e.isStructural = false) ↔ found.fault = none := by
  have herrors : (found.read s).1.errors =
      (Token.ofBodies found.bodies s).1.errors ++ found.fault.toList := rfl
  rw [herrors]
  constructor
  · intro h
    refine Option.eq_none_iff_forall_ne_some.mpr fun e he => ?_
    have hmem : e ∈ (Token.ofBodies found.bodies s).1.errors ++ found.fault.toList := by simp [he]
    exact absurd (hfault e he) (by simp [h e hmem])
  · intro hnone e he
    rw [hnone, Option.toList_none, List.append_nil] at he
    exact Token.isStructural_of_ofBodies he

theorem Opens.read {found : Scan} {text : List Char} (h : Opens found text)
    (hfault : ∀ e, found.fault = some e → e.isStructural) (s : ρ) :
    (found.read s).1.Opens text := by
  intro hreported before after htext hbefore
  have hnone := (isStructural_read_iff hfault s).mp hreported
  exact (exists_token_iff found s _ after).mpr (h hnone before after htext hbefore)

theorem Opens.of_read {found : Scan} {text : List Char} {s : ρ} (h : (found.read s).1.Opens text) :
    Opens found text := by
  intro hnone before after htext hbefore
  refine (exists_token_iff found s _ after).mp (h ?_ before after htext hbefore)
  intro e he
  have he : e ∈ (Token.ofBodies found.bodies s).1.errors ++ found.fault.toList := he
  rw [hnone, Option.toList_none, List.append_nil] at he
  exact Token.isStructural_of_ofBodies he

/-- What the symbol-wise reading gives. -/
theorem opens_read_tokenize (text : List Char) (s : ρ) : ((tokenize 0 text).read s).1.Opens text :=
  (tokenize_opens 0 text).read (fun _ => isStructural_of_tokenize) s

end Scan

theorem Parse.not_opens_of_slashed {text : String} (h : Scan.Slashed text.toList) (s : ρ) :
    ¬ (parse text s).1.Opens text.toList :=
  fun hopens => Scan.not_opens_of_slashed 0 h (.of_read hopens)

/-- **A text is read as it should be, and opens a symbol wherever it should, if and only if no slash
stands inside a symbol.** -/
theorem parse_comments_iff (text : String) (s : ρ) :
    (parse text s = (Scan.tokenize 0 text.toList).read s ↔ ¬ Scan.Slashed text.toList) ∧
      ((parse text s).1.Opens text.toList ↔ ¬ Scan.Slashed text.toList) := by
  have hagree : ¬ Scan.Slashed text.toList →
      parse text s = (Scan.tokenize 0 text.toList).read s := by
    intro hslashed
    rw [← Scan.ofChars_eq_tokenize 0 hslashed]
    rfl
  have hopens : parse text s = (Scan.tokenize 0 text.toList).read s →
      (parse text s).1.Opens text.toList := by
    intro hread
    rw [hread]
    exact Scan.opens_read_tokenize text.toList s
  have hnot : (parse text s).1.Opens text.toList → ¬ Scan.Slashed text.toList :=
    fun h hslashed => Parse.not_opens_of_slashed hslashed s h
  exact ⟨⟨fun h => hnot (hopens h), hagree⟩, hnot, fun h => hopens (hagree h)⟩

/-- Two symbols, the first of which holds a slash: both are missing, and nothing is reported. -/
theorem parse_slashed_name :
    (parse "<o A/B><o C>" (Xoroshiro.ofSeed 1)).1 = ⟨[], []⟩ ∧
    ¬ (parse "<o A/B><o C>" (Xoroshiro.ofSeed 1)).1.Opens "<o A/B><o C>".toList := by
  refine ⟨by rfl, Parse.not_opens_of_slashed ?_ _⟩
  exact ⟨[], "o A".toList, "B><o C>".toList, .nil, List.all_eq_true.mp rfl, rfl⟩

end SpatialGrammar
