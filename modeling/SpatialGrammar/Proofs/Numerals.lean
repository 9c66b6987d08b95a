/-
SpatialGrammar/Proofs/Numerals.lean

Which numerals numbers are written as, and what these numerals come to.

A whole number is written with its digits.  A single-precision number is written with the
digits of its shortest decimal, either with a point among them, or with an exponent behind
them; in both cases the text is a numeral of JSON and not one of a whole number.  A reader
that gathers its digits in a word gets back the decimal, or, where a point has been put after
a whole number, ten times as many units of a tenth.
-/
import Mathlib.Tactic.Positivity
import Mathlib.Tactic.Ring
import SpatialGrammar.Document.Writing
import SpatialGrammar.Json.Fields
import SpatialGrammar.Json.Reading

namespace SpatialGrammar.Decimal

/-! ### Digits -/

theorem natOfDigits_eq (cs : List Char) : natOfDigits cs = Nat.ofDigitChars 10 cs 0 := rfl

@[simp] theorem natOfDigits_toDigits (n : Nat) : natOfDigits (Nat.toDigits 10 n) = n :=
  Nat.ofDigitChars_ten_toDigits

theorem natOfDigits_append (cs ds : List Char) :
    natOfDigits (cs ++ ds) = 10 ^ ds.length * natOfDigits cs + natOfDigits ds := by
  rw [natOfDigits_eq, Nat.ofDigitChars_append, Nat.ofDigitChars_eq_ofDigitChars_zero]
  rfl

theorem natOfDigits_zeros (n : Nat) : natOfDigits (List.replicate n '0') = 0 := by
  rw [natOfDigits_eq, Nat.ofDigitChars_replicate_zero, Nat.mul_zero]

theorem isDigit_toDigits (n : Nat) : (Nat.toDigits 10 n).all Char.isDigit :=
  List.all_eq_true.mpr fun _ => Nat.isDigit_of_mem_toDigits (by decide) (by decide)

@[simp] theorem natural?_toDigits (n : Nat) : natural? (Nat.toDigits 10 n) = some n := by
  rw [natural?, if_pos ⟨Nat.toDigits_ne_nil, isDigit_toDigits n⟩, natOfDigits_toDigits]

/-- A number that is not zero is written without a zero in front. -/
theorem head?_toDigits {n : Nat} (h : 0 < n) : (Nat.toDigits 10 n).head? ≠ some '0' := by
  induction n using Nat.strong_induction_on with
  | _ n ih =>
    rcases lt_or_ge n 10 with hlt | hge
    · rw [Nat.toDigits_of_lt_base hlt]
      simp; omega
    · rw [Nat.toDigits_of_base_le (by decide) hge,
        List.head?_append_of_ne_nil _ Nat.toDigits_ne_nil]
      exact ih (n / 10) (by omega) (by omega)

/-- Text with something in it that is no digit spells no whole number. -/
theorem natural?_eq_none {cs : List Char} {c : Char} (hc : c ∈ cs) (h : c.isDigit = false) :
    natural? cs = none := by
  rw [natural?, if_neg]
  rintro ⟨-, hall⟩
  simp [List.all_eq_true.mp hall c hc] at h

/-! ### Numerals with a point or an exponent -/

/-- The digits in front of a text that begins with no digit. -/
theorem span_digits {ds rest : List Char} (hds : ds.all Char.isDigit)
    (hrest : ∀ c ∈ rest.head?, c.isDigit = false) :
    (ds ++ rest).takeWhile Char.isDigit = ds ∧ (ds ++ rest).dropWhile Char.isDigit = rest := by
  rw [List.takeWhile_append_of_pos (List.all_eq_true.mp hds),
    List.dropWhile_append_of_pos (List.all_eq_true.mp hds)]
  cases rest with
  | nil => simp
  | cons c rest => simp [hrest c rfl]

/-- The text is a numeral of JSON, but not of a whole number, and its digits are those of `d` in
units of `10 ^ k`. -/
structure Spells (text : List Char) (d : Nat) (k : Int) : Prop where
  numeral : Json.isNumeral text
  /-- What it begins with, which is no sign. -/
  head : ∃ c cs, text = c :: cs ∧ c.isDigit
  /-- The point or the exponent mark. -/
  mark : ∃ c ∈ text, c.isDigit = false
  parts : ∃ p, parts? text = some p ∧ natOfDigits (p.whole ++ p.fraction) = d ∧
    p.exponent - (p.fraction.length : Int) = k

/-- Digits as they may stand in front of a numeral. -/
structure Leads (whole : List Char) : Prop where
  ne_nil : whole ≠ []
  digits : whole.all Char.isDigit
  /-- There is no superfluous zero. -/
  head : whole = ['0'] ∨ whole.head? ≠ some '0'

theorem leads_toDigits {n : Nat} (h : 0 < n) : Leads (Nat.toDigits 10 n) :=
  ⟨Nat.toDigits_ne_nil, isDigit_toDigits n, .inr (head?_toDigits h)⟩

theorem Leads.exists_cons {whole : List Char} (h : Leads whole) (rest : List Char) :
    ∃ c cs, whole ++ rest = c :: cs ∧ c.isDigit := by
  obtain ⟨hne, hdigits, -⟩ := h
  cases whole with
  | nil => exact absurd rfl hne
  | cons c cs => exact ⟨c, cs ++ rest, rfl, List.all_eq_true.mp hdigits c List.mem_cons_self⟩

theorem Leads.isNumeral {whole rest : List Char} (h : Leads whole)
    (hrest : ∀ c ∈ rest.head?, c.isDigit = false) (hfraction : Json.isFraction rest) :
    Json.isNumeral (whole ++ rest) := by
  obtain ⟨htake, hdrop⟩ := span_digits h.digits hrest
  obtain ⟨c, cs, hcons, hc⟩ := h.exists_cons rest
  have hminus : c ≠ '-' := by
    rintro rfl
    cases hc
  rw [hcons] at htake hdrop ⊢
  unfold Json.isNumeral
  simp only
  split
  next h => exact absurd (List.cons.inj h).1 hminus
  next => simp [htake, hdrop, h.ne_nil, h.head, hfraction]

/-- What may stand behind the digits of a numeral, and the exponent that it means. -/
structure Follows (tail : List Char) (exponent : Int) : Prop where
  head : ∀ c ∈ tail.head?, c.isDigit = false ∧ c ≠ '.'
  json : Json.isExponent tail
  value : exponent? tail = some exponent

theorem follows_nil : Follows [] 0 := ⟨by simp, rfl, rfl⟩

/-- An exponent mark with a signed exponent. -/
theorem follows_exponent (order : Int) :
    Follows ('e' :: (if order < 0 then '-' else '+') :: Nat.toDigits 10 order.natAbs) order := by
  have hdigits := isDigit_toDigits order.natAbs
  split
  next hneg =>
    refine ⟨by simp, by simp [Json.isExponent, hdigits, Nat.toDigits_ne_nil], ?_⟩
    simp [exponent?, splitSign, abs_of_neg hneg]
  next hpos =>
    refine ⟨by simp, by simp [Json.isExponent, hdigits, Nat.toDigits_ne_nil], ?_⟩
    simp [exponent?, splitSign, not_lt.mp hpos]

/-- A numeral with a point. -/
theorem spells_point {whole fraction tail : List Char} {exponent : Int} (hwhole : Leads whole)
    (hne : fraction ≠ []) (hfraction : fraction.all Char.isDigit) (htail : Follows tail exponent) :
    Spells (whole ++ '.' :: (fraction ++ tail)) (natOfDigits (whole ++ fraction))
      (exponent - (fraction.length : Int)) := by
  have hpoint : ∀ c ∈ ('.' :: (fraction ++ tail)).head?, c.isDigit = false := by simp
  obtain ⟨htake, hdrop⟩ := span_digits hwhole.digits hpoint
  obtain ⟨htake', hdrop'⟩ := span_digits hfraction fun c hc => (htail.head c hc).1
  refine ⟨hwhole.isNumeral hpoint ?_, hwhole.exists_cons _, ⟨'.', by simp, rfl⟩,
    ⟨whole, fraction, exponent⟩, ?_, rfl, rfl⟩
  · simp [Json.isFraction, htake', hdrop', hne, htail.json]
  · simp [parts?, htake, hdrop, htake', hdrop', hwhole.ne_nil, htail.value]

/-- A numeral with an exponent and no point. -/
theorem spells_bare {whole tail : List Char} {exponent : Int} (hwhole : Leads whole)
    (hne : tail ≠ []) (htail : Follows tail exponent) :
    Spells (whole ++ tail) (natOfDigits whole) exponent := by
  obtain ⟨htake, hdrop⟩ := span_digits hwhole.digits fun c hc => (htail.head c hc).1
  obtain ⟨c, cs, rfl⟩ := List.exists_cons_of_ne_nil hne
  obtain ⟨hc, hpoint⟩ := htail.head c rfl
  have hfraction : Json.isFraction (c :: cs) := by
    unfold Json.isFraction
    split
    next h => exact absurd (List.cons.inj h).1 hpoint
    next => exact htail.json
  refine ⟨hwhole.isNumeral (by simpa using hc) hfraction, hwhole.exists_cons _,
    ⟨c, by simp, hc⟩, ⟨whole, [], exponent⟩, ?_, by simp, by simp⟩
  simp [parts?, htake, hdrop, hpoint, hwhole.ne_nil, htail.value]

/-- The first digits of a numeral. -/
theorem Leads.append_left {whole more : List Char} (h : Leads (whole ++ more)) (hne : whole ≠ [])
    (hhead : whole.head? ≠ some '0') : Leads whole := by
  have hdigits := h.digits
  rw [List.all_append, Bool.and_eq_true] at hdigits
  exact ⟨hne, hdigits.1, .inr hhead⟩

section Positional

variable {d : Nat}

/-- A whole number, with a zero behind the point. -/
theorem spells_whole (hd : 0 < d) {k : Int} (hk : 0 ≤ k) :
    Spells (Layout.document.positionalText (Nat.toDigits 10 d) k) (d * 10 ^ (k + 1).toNat)
      (-1) := by
  have hleads := leads_toDigits hd
  have hhead := head?_toDigits hd
  have hvalue := natOfDigits_toDigits d
  generalize Nat.toDigits 10 d = digits at hleads hhead hvalue
  have hwhole : Leads (digits ++ List.replicate k.toNat '0') := by
    refine ⟨by simp [hleads.ne_nil], by simp [hleads.digits], .inr ?_⟩
    rwa [List.head?_append_of_ne_nil _ hleads.ne_nil]
  have htext : Layout.document.positionalText digits k =
      digits ++ List.replicate k.toNat '0' ++ '.' :: (['0'] ++ []) := by
    simp [Layout.positionalText, hk, Layout.document]
  have hdigits : natOfDigits (digits ++ List.replicate k.toNat '0' ++ ['0']) =
      d * 10 ^ (k + 1).toNat := by
    rw [natOfDigits_append, natOfDigits_append, natOfDigits_zeros, hvalue,
      show (k + 1).toNat = k.toNat + 1 by omega, pow_succ]
    simp [natOfDigits, appendDigit]
    ring
  rw [htext, ← hdigits]
  exact spells_point hwhole (List.cons_ne_nil '0' []) rfl follows_nil

/-- A point among the digits. -/
theorem spells_among (hd : 0 < d) {places : Nat} (hpos : 0 < places)
    (hlt : places < (Nat.toDigits 10 d).length) :
    Spells ((Nat.toDigits 10 d).take ((Nat.toDigits 10 d).length - places) ++
      '.' :: (Nat.toDigits 10 d).drop ((Nat.toDigits 10 d).length - places)) d (-places) := by
  have hleads := leads_toDigits hd
  have hhead := head?_toDigits hd
  have hvalue := natOfDigits_toDigits d
  generalize Nat.toDigits 10 d = digits at hleads hhead hvalue hlt
  have hsplit := List.take_append_drop (digits.length - places) digits
  have hwhole : Leads (digits.take (digits.length - places)) := by
    refine Leads.append_left (hsplit.symm ▸ hleads) ?_ ?_
    · simp [hleads.ne_nil]
      omega
    · rwa [List.head?_take, if_neg (by omega)]
  have hfraction : (digits.drop (digits.length - places)).all Char.isDigit :=
    List.all_eq_true.mpr fun c hc =>
      List.all_eq_true.mp hleads.digits c (List.mem_of_mem_drop hc)
  have hexponent :
      (0 : Int) - (digits.drop (digits.length - places)).length = -(places : Int) := by
    rw [List.length_drop]
    omega
  have hspells := spells_point hwhole (by simp; omega) hfraction follows_nil
  rwa [hsplit, hvalue, List.append_nil, hexponent] at hspells

/-- The digits behind the point, after zeros. -/
theorem spells_behind (hd : 0 < d) {places : Nat} (hge : (Nat.toDigits 10 d).length ≤ places) :
    Spells ('0' :: '.' :: List.replicate (places - (Nat.toDigits 10 d).length) '0' ++
      Nat.toDigits 10 d) d (-places) := by
  have hleads := leads_toDigits hd
  have hvalue := natOfDigits_toDigits d
  generalize Nat.toDigits 10 d = digits at hleads hvalue hge
  have hfraction : (List.replicate (places - digits.length) '0' ++ digits).all Char.isDigit := by
    simp [hleads.digits]
  have hdigits :
      natOfDigits (['0'] ++ (List.replicate (places - digits.length) '0' ++ digits)) = d := by
    rw [natOfDigits_append, natOfDigits_append, natOfDigits_zeros, hvalue]
    simp [natOfDigits, appendDigit]
  have hexponent :
      (0 : Int) - (List.replicate (places - digits.length) '0' ++ digits).length =
        -(places : Int) := by
    rw [List.length_append, List.length_replicate]
    omega
  have hspells := spells_point ⟨List.cons_ne_nil '0' [], rfl, .inl rfl⟩
    (by simp [hleads.ne_nil]) hfraction follows_nil
  rw [hdigits, List.append_nil, hexponent] at hspells
  simpa using hspells

/-- Digits with a point among, before or behind them. -/
theorem spells_positionalText (hd : 0 < d) (k : Int) :
    let text := Layout.document.positionalText (Nat.toDigits 10 d) k
    (k < 0 ∧ Spells text d k) ∨ (0 ≤ k ∧ Spells text (d * 10 ^ (k + 1).toNat) (-1)) := by
  by_cases hk : 0 ≤ k
  · exact .inr ⟨hk, spells_whole hd hk⟩
  · obtain ⟨places, rfl⟩ : ∃ places : Nat, k = -(places : Int) := ⟨(-k).toNat, by omega⟩
    refine .inl ⟨by omega, ?_⟩
    simp only [Layout.positionalText, if_neg hk, neg_neg, Int.toNat_natCast]
    split
    next hlt => exact spells_among hd (by omega) hlt
    next hge => exact spells_behind hd (not_lt.mp hge)

end Positional

/-- One digit before the point, and an exponent. -/
theorem spells_scientificText {d : Nat} (hd : 0 < d) (k : Int) :
    Spells (Layout.scientificText (Nat.toDigits 10 d)
      (k + ((Nat.toDigits 10 d).length : Int) - 1)) d k := by
  have hleads := leads_toDigits hd
  have hhead := head?_toDigits hd
  have hvalue := natOfDigits_toDigits d
  generalize Nat.toDigits 10 d = digits at hleads hhead hvalue
  rcases digits with - | ⟨c, - | ⟨e, es⟩⟩
  · exact absurd rfl hleads.ne_nil
  · have hspells := spells_bare hleads (List.cons_ne_nil _ _)
      (follows_exponent (k + (([c] : List Char).length : Int) - 1))
    rw [hvalue] at hspells
    simpa [Layout.scientificText] using hspells
  · obtain ⟨hc, hmore⟩ : c.isDigit ∧ (e :: es).all Char.isDigit := by
      simpa using hleads.digits
    have hone : Leads [c] := ⟨List.cons_ne_nil c [], by simp [hc], .inr hhead⟩
    have hspells := spells_point hone (List.cons_ne_nil e es) hmore
      (follows_exponent (k + ((c :: e :: es).length : Int) - 1))
    rw [List.singleton_append, List.singleton_append, hvalue] at hspells
    have hexponent : k + ((c :: e :: es).length : Int) - 1 - ((e :: es).length : Int) = k := by
      simp only [List.length_cons]
      omega
    rwa [hexponent] at hspells

/-- **A number in a document is spelled by its digits, or, with a zero after the point, by ten times
as many tenths.** -/
theorem spells_decimalText {d : Nat} (hd : 0 < d) (k : Int) :
    let text := Layout.document.decimalText d k
    Spells text d k ∨
      (0 ≤ k ∧ k + ((Nat.toDigits 10 d).length : Int) ≤ 13 ∧
        Spells text (d * 10 ^ (k + 1).toNat) (-1)) := by
  intro text
  by_cases hpositional : Layout.document.positional (k + ((Nat.toDigits 10 d).length : Int) - 1)
  · have htext : text = Layout.document.positionalText (Nat.toDigits 10 d) k := by
      simp [text, Layout.decimalText, hpositional]
    rw [htext]
    simp only [Layout.document, Bool.and_eq_true, decide_eq_true_eq] at hpositional
    rcases spells_positionalText hd k with ⟨-, h⟩ | ⟨hk, h⟩
    · exact .inl h
    · exact .inr ⟨hk, by omega, h⟩
  · have htext : text = Layout.scientificText (Nat.toDigits 10 d)
        (k + ((Nat.toDigits 10 d).length : Int) - 1) := by
      simp [text, Layout.decimalText, hpositional]
    rw [htext]
    exact .inl (spells_scientificText hd k)

/-! ### What is read -/

/-- A word with room for all digits takes them all. -/
theorem gather_eq {n : Nat} {cs : List Char} (h : cs.foldl appendDigit n < UInt64.size) :
    gather n cs = (cs.foldl appendDigit n, []) := by
  have hle : ∀ (cs : List Char) (n : Nat), n ≤ cs.foldl appendDigit n := by
    intro cs n
    have hvalue : cs.foldl appendDigit n = 10 ^ cs.length * n + Nat.ofDigitChars 10 cs 0 :=
      Nat.ofDigitChars_eq_ofDigitChars_zero
    rw [hvalue]
    exact (Nat.le_mul_of_pos_left n (by positivity)).trans (Nat.le_add_right _ _)
  induction cs generalizing n with
  | nil => rfl
  | cons c cs ih =>
    rw [List.foldl_cons] at h ⊢
    rw [gather, if_pos ((hle cs _).trans_lt h), ih h]

/-- Digits that fit a word are gathered without loss. -/
theorem Parts.gathered_eq {p : Parts} (h : natOfDigits (p.whole ++ p.fraction) < UInt64.size) :
    p.gathered = ⟨false, natOfDigits (p.whole ++ p.fraction),
      p.exponent - (p.fraction.length : Int)⟩ := by
  have happend : p.fraction.foldl appendDigit (p.whole.foldl appendDigit 0) =
      natOfDigits (p.whole ++ p.fraction) := List.foldl_append.symm
  have hwhole : p.whole.foldl appendDigit 0 < UInt64.size := by
    refine lt_of_le_of_lt ?_ h
    rw [natOfDigits_append]
    exact (Nat.le_mul_of_pos_left _ (by positivity)).trans (Nat.le_add_right _ _)
  simp [Parts.gathered, gather_eq hwhole, gather_eq (happend ▸ h), happend]

/-- A digit is no sign. -/
theorem splitSign_of_isDigit {c : Char} (hc : c.isDigit) (cs : List Char) :
    splitSign (c :: cs) = (false, c :: cs) := by
  unfold splitSign
  split
  next h => exact absurd hc (by rw [(List.cons.inj h).1]; decide)
  next h => exact absurd hc (by rw [(List.cons.inj h).1]; decide)
  next => rfl

/-- The digits of a whole number that fits a word. -/
theorem gathered?_toDigits {n : Nat} (h : n < UInt64.size) :
    gathered? (Nat.toDigits 10 n) = some ⟨false, n, 0⟩ := by
  have hspan : ((Nat.toDigits 10 n) ++ []).takeWhile Char.isDigit = Nat.toDigits 10 n ∧
      ((Nat.toDigits 10 n) ++ []).dropWhile Char.isDigit = [] :=
    span_digits (isDigit_toDigits n) (by simp)
  rw [List.append_nil] at hspan
  obtain ⟨htake, hdrop⟩ := hspan
  have hparts : parts? (Nat.toDigits 10 n) = some ⟨Nat.toDigits 10 n, [], 0⟩ := by
    simp [parts?, htake, hdrop, exponent?, Nat.toDigits_ne_nil]
  obtain ⟨c, cs, hcons⟩ := List.exists_cons_of_ne_nil (Nat.toDigits_ne_nil (n := n) (b := 10))
  have hsplit : splitSign (Nat.toDigits 10 n) = (false, Nat.toDigits 10 n) := by
    have hdigit := List.all_eq_true.mp (isDigit_toDigits n) c
    rw [hcons] at hdigit ⊢
    exact splitSign_of_isDigit (hdigit List.mem_cons_self) cs
  rw [gathered?, hsplit]
  simp [hparts, Parts.gathered_eq, h]

/-- A numeral with its sign. -/
def signed (negative : Bool) (text : List Char) : List Char :=
  (if negative then ['-'] else []) ++ text

section Spells

variable {text : List Char} {d : Nat} {k : Int}

theorem Spells.splitSign (h : Spells text d k) (negative : Bool) :
    splitSign (signed negative text) = (negative, text) := by
  obtain ⟨c, cs, rfl, hc⟩ := h.head
  cases negative with
  | true => rfl
  | false => exact splitSign_of_isDigit hc cs

/-- **The decimal of a numeral that fits a word.** -/
theorem Spells.gathered? (h : Spells text d k) (hd : d < UInt64.size) (negative : Bool) :
    gathered? (signed negative text) = some ⟨negative, d, k⟩ := by
  obtain ⟨p, hp, rfl, rfl⟩ := h.parts
  simp [Decimal.gathered?, h.splitSign, hp, Parts.gathered_eq hd]

theorem Spells.isNumeral (h : Spells text d k) (negative : Bool) :
    Json.isNumeral (signed negative text) := by
  cases negative with
  | false => exact h.numeral
  | true =>
    obtain ⟨c, cs, rfl, hc⟩ := h.head
    have hnumeral := h.numeral
    unfold Json.isNumeral at hnumeral
    simp only at hnumeral
    split at hnumeral
    next h => exact absurd hc (by rw [(List.cons.inj h).1]; decide)
    next => exact hnumeral

/-- It is not a whole number. -/
theorem Spells.wholeNumber? (h : Spells text d k) (negative : Bool) :
    Json.wholeNumber? (signed negative text) = none := by
  obtain ⟨c, hc, hmark⟩ := h.mark
  cases negative with
  | true => simp [signed, Json.wholeNumber?, natural?_eq_none hc hmark]
  | false =>
    obtain ⟨c', cs, rfl, hc'⟩ := h.head
    unfold Json.wholeNumber?
    split
    next h => exact absurd hc' (by rw [(List.cons.inj h).1]; decide)
    next => simp [signed, natural?_eq_none hc hmark]

end Spells

end SpatialGrammar.Decimal
