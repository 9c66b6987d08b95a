/-
SpatialGrammar/Proofs/Spelling.lean

Symbols that are written down are read again.

No bracket and no slash stands inside the brackets of a symbol that was read
(`Scan.plain_of_mem`), so a text that is written of symbols is cut where they end
(`Scan.ofChars_spelled`).  What is read of a symbol's text is the same whatever the
source gives, up to the numbers that are put into the arguments (`Token.reading_ofBody`).
Together: `Token.parse_render`.
-/
import Mathlib.Algebra.GroupWithZero.Nat
import SpatialGrammar.Symbol.Token

namespace SpatialGrammar

/-! ### Cutting -/

namespace Scan

/-- Whether a text can stand inside the brackets of a symbol. -/
def Plain (body : List Char) : Prop := ∀ c ∈ body, c ≠ '<' ∧ c ≠ '>' ∧ c ≠ '/'

/-- The texts of symbols with their brackets, one after another. -/
def spelled (bodies : List (List Char)) : List Char :=
  bodies.flatMap fun body => '<' :: body ++ ['>']

/-- **What is cut out of a text can stand inside brackets.** -/
theorem plain_of_mem {offset : Nat} {current : Option Open} {text : List Char}
    (h : ∀ o, current = some o → Plain o.reversed) :
    ∀ body ∈ (ofChars offset current text).bodies, Plain body := by
  induction text generalizing offset current with
  | nil => simp [ofChars]
  | cons c text ih =>
    unfold ofChars
    dsimp only
    split
    · simp
    next hslash =>
    rcases current with - | o
    · -- between symbols
      dsimp only
      split
      · refine ih ?_
        rintro _ ⟨⟩
        simp [Plain]
      · split
        · exact ih (by simp)
        · simp
    · -- inside a symbol
      have ho := h o rfl
      dsimp only
      split
      · simp
      next hopen =>
      split
      · intro body hbody
        rcases List.mem_cons.mp hbody with rfl | hbody
        · exact fun d hd => ho d (List.mem_reverse.mp hd)
        · exact ih (by simp) body hbody
      next hclose =>
      refine ih ?_
      rintro _ ⟨⟩ d hd
      rcases List.mem_cons.mp hd with rfl | hd
      · exact ⟨hopen, hclose, hslash⟩
      · exact ho d hd

/-- The number of bytes of a text. -/
def byteCount (text : List Char) : Nat := (text.map Char.utf8Size).sum

theorem ofChars_bracket (offset : Nat) (rest : List Char) :
    ofChars offset none ('<' :: rest) =
      ofChars (offset + '<'.utf8Size) (some ⟨offset, []⟩) rest := by
  rw [ofChars, if_neg (by decide), if_pos rfl]

/-- What stands inside an open symbol is gathered. -/
theorem ofChars_plain (offset : Nat) (o : Open) (rest : List Char) {body : List Char}
    (hbody : Plain body) :
    ofChars offset (some o) (body ++ rest) =
      ofChars (offset + byteCount body) (some { o with reversed := body.reverse ++ o.reversed })
        rest := by
  induction body generalizing offset o with
  | nil => rfl
  | cons c body ih =>
    obtain ⟨hopen, hclose, hslash⟩ := hbody c List.mem_cons_self
    rw [List.cons_append, ofChars, if_neg hslash, if_neg hopen, if_neg hclose,
      ih _ _ fun d hd => hbody d (List.mem_cons_of_mem c hd)]
    simp [byteCount, Nat.add_assoc]

/-- A symbol is cut out where it ends. -/
theorem ofChars_symbol (offset : Nat) {body : List Char} (hbody : Plain body) (rest : List Char) :
    ofChars offset none ('<' :: (body ++ '>' :: rest)) =
      (ofChars (offset + '<'.utf8Size + byteCount body + '>'.utf8Size) none rest).cons body := by
  rw [ofChars_bracket, ofChars_plain _ _ _ hbody, ofChars, if_neg (by decide), if_neg (by decide),
    if_pos rfl]
  simp

/-- **A text that is written of symbols is cut where they end**, and it has no fault. -/
theorem ofChars_spelled (offset : Nat) {bodies : List (List Char)}
    (h : ∀ body ∈ bodies, Plain body) :
    ofChars offset none (spelled bodies) = ⟨bodies, none⟩ := by
  induction bodies generalizing offset with
  | nil => rfl
  | cons body bodies ih =>
    have hbodies : ∀ b ∈ bodies, Plain b := fun b hb => h b (List.mem_cons_of_mem body hb)
    have htext : spelled (body :: bodies) = '<' :: (body ++ '>' :: spelled bodies) := by
      simp [spelled]
    rw [htext, ofChars_symbol offset (h body List.mem_cons_self), ih _ hbodies]
    rfl

end Scan

/-! ### Reading -/

namespace Token

/-- What is read of a symbol whatever the source gives: all but the arguments. -/
def reading (t : Token) : String × SymbolKind × String := (t.raw, t.kind, t.name)

/-- The same, from the text inside the brackets. -/
def readingOf (body : List Char) : String × SymbolKind × String :=
  let compact := Text.withoutBlanks (body.dropWhile (!Text.isBlank ·))
  (rawOfBody body, SymbolKind.ofWord (body.takeWhile (!Text.isBlank ·)),
    match splitArguments? compact with
    | none => String.ofList compact
    | some (before, _, after) => String.ofList (before ++ after))

/-- A symbol as it may come out of a text. -/
def Proper (t : Token) : Prop := ∃ body, Scan.Plain body ∧ t.reading = readingOf body

variable {α ρ : Type} [Scalar α] [Numeral α] [RandomSource ρ α]

/-- The source decides about arguments only. -/
theorem reading_ofBody (body : List Char) (s : ρ) :
    (ofBody body s).1.1.reading = readingOf body := by
  unfold ofBody readingOf
  dsimp only
  split <;> simp [reading, *]

theorem map_reading_ofBodies (bodies : List (List Char)) (s : ρ) :
    (ofBodies bodies s).1.tokens.map reading = bodies.map readingOf := by
  induction bodies generalizing s with
  | nil => rfl
  | cons body bodies ih =>
    show (ofBody body s).1.1.reading :: (ofBodies bodies (ofBody body s).2).1.tokens.map reading = _
    rw [reading_ofBody, ih, List.map_cons]

/-- The symbols of a text come from what is cut out of it. -/
theorem map_reading_parse (text : String) (s : ρ) :
    (parse text s).1.tokens.map reading = (scan text.toList).bodies.map readingOf :=
  map_reading_ofBodies (scan text.toList).bodies s

/-- So they are proper. -/
theorem proper_of_mem_parse {text : String} {s : ρ} {t : Token} (h : t ∈ (parse text s).1.tokens) :
    t.Proper := by
  have hmem : t.reading ∈ (scan text.toList).bodies.map readingOf := by
    rw [← map_reading_parse text s]
    exact List.mem_map_of_mem h
  obtain ⟨body, hbody, hreading⟩ := List.mem_map.mp hmem
  exact ⟨body, Scan.plain_of_mem (by simp) body hbody, hreading.symm⟩

/-- Symbols are written down alike if they are read alike. -/
theorem render_congr {ts us : List Token} (h : ts.map reading = us.map reading) :
    render ts = render us := by
  have hraw (ts : List Token) : ts.map raw = (ts.map reading).map Prod.fst := by
    rw [List.map_map]
    rfl
  unfold render
  rw [hraw, hraw, h]

/-- Proper symbols are read as some texts inside brackets. -/
theorem exists_bodies {ts : List Token} (h : ∀ t ∈ ts, t.Proper) :
    ∃ bodies : List (List Char), (∀ body ∈ bodies, Scan.Plain body) ∧
      ts.map reading = bodies.map readingOf := by
  induction ts with
  | nil => exact ⟨[], by simp, rfl⟩
  | cons t ts ih =>
    obtain ⟨body, hplain, hreading⟩ := h t List.mem_cons_self
    obtain ⟨bodies, hbodies, hrest⟩ := ih fun u hu => h u (List.mem_cons_of_mem t hu)
    refine ⟨body :: bodies, List.forall_mem_cons.mpr ⟨hplain, hbodies⟩, ?_⟩
    rw [List.map_cons, List.map_cons, hreading, hrest]

/-- What is written of symbols that were cut out as the given bodies. -/
theorem toList_render {ts : List Token} {bodies : List (List Char)}
    (h : ts.map raw = bodies.map rawOfBody) : (render ts).toList = Scan.spelled bodies := by
  unfold render Scan.spelled
  rw [h, String.toList_join, List.flatMap_map]
  simp [rawOfBody]

/-- **Proper symbols that are written down are read again**, but for their arguments. -/
theorem parse_render {ts : List Token} (h : ∀ t ∈ ts, t.Proper) (s : ρ) :
    (parse (render ts) s).1.tokens.map reading = ts.map reading := by
  obtain ⟨bodies, hplain, hreading⟩ := exists_bodies h
  have hraw : ts.map raw = bodies.map rawOfBody := calc
    ts.map raw = (ts.map reading).map Prod.fst := by rw [List.map_map]; rfl
    _ = (bodies.map readingOf).map Prod.fst := by rw [hreading]
    _ = bodies.map rawOfBody := by rw [List.map_map]; rfl
  rw [map_reading_parse, toList_render hraw, hreading]
  unfold scan
  rw [Scan.ofChars_spelled 0 hplain]

/-- Symbols that are read alike have the same names, also those of them that are expanded. -/
theorem map_name_filter_congr {ts us : List Token} (h : ts.map reading = us.map reading) :
    (ts.filter (·.kind.expands)).map name = (us.filter (·.kind.expands)).map name := by
  have hname (ts : List Token) : (ts.filter (·.kind.expands)).map name =
      ((ts.map reading).filter (·.2.1.expands)).map (·.2.2) := by
    rw [List.filter_map, List.map_map]
    rfl
  rw [hname, hname, h]

end Token

end SpatialGrammar
