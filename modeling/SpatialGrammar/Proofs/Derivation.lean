/-
SpatialGrammar/Proofs/Derivation.lean

The sentences of a run are a derivation by its rules.

A sentence is written in two ways, by a pass and by writing it anew after a pass that
failed, and both put one block behind another, for each symbol that is expanded
(`Rewriting`).  A block is nothing or an alternative that may be drawn, so whichever
attempt was the last one, the next sentence is derived from the one before (`Derives`).
What the records keep of a sentence is its text alone; that the symbols can be told from
it is `Sentence.Spelt.map_reading_parse`.
-/
import Mathlib.Data.List.Chain
import Mathlib.Data.List.Forall2
import SpatialGrammar.Decimal.Layout
import SpatialGrammar.Derivation.Rehearsal
import SpatialGrammar.Proofs.RunRule
import SpatialGrammar.Proofs.Spelling
import SpatialGrammar.Proofs.Writing

namespace SpatialGrammar

variable {α W ρ : Type}

/-- A text may take the place of a symbol with the given name: nothing may, and what is read of an
alternative of its rule, if that has a positive probability and is not blank. -/
def Expansion [RandomSource ρ Float32] (rules : List (Rule Float32)) (s : ρ)
    (name block : String) : Prop :=
  block = "" ∨ ∃ rule a, (rules.find? fun rule => rule.name = name) = some rule ∧
    a ∈ rule.outputs ∧ 0 < a.probability ∧ Text.isAllBlank a.template.toList = false ∧
      block = render (parse a.template s).1.tokens

/-- One text is derived from another by putting an expansion in the place of each rule and each
object, and nothing in the place of all else. -/
def Derives [RandomSource ρ Float32] (rules : List (Rule Float32)) (s : ρ)
    (text next : String) : Prop :=
  ∃ blocks, List.Forall₂ (Expansion rules s)
      (((parse text s).1.tokens.filter (·.kind.expands)).map Token.name) blocks ∧
    next = String.join blocks

/-! ### Sentences and their texts -/

theorem render_append (ts us : List Token) : render (ts ++ us) = render ts ++ render us := by
  unfold render
  rw [List.map_append, String.join_append]

/-- Whatever the source gives, a text is read as the same symbols, up to their arguments. -/
theorem render_parse [Scalar α] [Numeral α] [RandomSource ρ α] (text : String) (s t : ρ) :
    render (parse text s).1.tokens = render (parse text t).1.tokens :=
  Token.render_congr ((Token.map_reading_parse text s).trans (Token.map_reading_parse text t).symm)

namespace Sentence

/-- The symbols of a sentence as they were read. -/
def tokens (s : Sentence) (a : Arena) : List Token :=
  s.symbols.toList.map fun id => (a.get id).toToken

/-- The text of a sentence is that of its symbols, and each of these may come out of a text. -/
structure Spelt (a : Arena) (s : Sentence) : Prop where
  lt_size : ∀ id ∈ s.symbols.toList, id < a.size
  proper : ∀ t ∈ s.tokens a, t.Proper
  text_eq : s.text = render (s.tokens a)

variable {s : Sentence} {a b : Arena}

theorem tokens_congr (hlt : ∀ id ∈ s.symbols.toList, id < a.size)
    (h : ∀ id < a.size, (b.get id).toToken = (a.get id).toToken) : s.tokens b = s.tokens a :=
  List.map_congr_left fun id hid => h id (hlt id hid)

/-- Reading a text puts its symbols at the end. -/
theorem tokens_append (hlt : ∀ id ∈ s.symbols.toList, id < a.size) (ts : List Token)
    (parent : Option SymbolId) :
    (s.append a ts parent).1.tokens (s.append a ts parent).2 = s.tokens a ++ ts ∧
      (s.append a ts parent).1.text = s.text ++ render ts := by
  induction ts generalizing s a with
  | nil => exact ⟨(List.append_nil _).symm, (String.append_empty).symm⟩
  | cons t ts ih =>
    let s' : Sentence := ⟨s.symbols.push a.size, s.text ++ t.raw⟩
    have happend : s.append a (t :: ts) parent = s'.append (a.insert t parent) ts parent := rfl
    have hold : ∀ id < a.size, ((a.insert t parent).get id).toToken = (a.get id).toToken := by
      intro id hid
      rw [Arena.get_insert, if_neg (Nat.ne_of_lt hid)]
    have hlast : ((a.insert t parent).get a.size).toToken = t := by
      rw [Arena.get_insert, if_pos rfl]
    have hfirst : s'.tokens (a.insert t parent) = s.tokens a ++ [t] := by
      have hmap : s'.tokens (a.insert t parent) =
          s.tokens (a.insert t parent) ++ [((a.insert t parent).get a.size).toToken] := by
        simp [s', tokens]
      rw [hmap, hlast, tokens_congr hlt hold]
    have hlt' : ∀ id ∈ s'.symbols.toList, id < (a.insert t parent).size := by
      intro id hid
      rw [Arena.size_insert]
      rcases List.mem_append.mp (by simpa [s'] using hid :
        id ∈ s.symbols.toList ++ [a.size]) with hid | hid
      · exact Nat.lt_succ_of_lt (hlt id hid)
      · rw [List.mem_singleton.mp hid]
        exact Nat.lt_succ_self _
    obtain ⟨htokens, htext⟩ := ih hlt'
    rw [happend, htokens, htext, hfirst, List.append_assoc]
    refine ⟨rfl, ?_⟩
    show s.text ++ t.raw ++ render ts = s.text ++ render (t :: ts)
    have hrender : render (t :: ts) = t.raw ++ render ts := by
      unfold render
      rw [List.map_cons, String.join_cons]
    rw [hrender, String.append_assoc]

namespace Spelt

theorem empty (a : Arena) : Sentence.empty.Spelt a := by
  refine ⟨?_, ?_, rfl⟩ <;> simp [Sentence.empty, tokens]

/-- Old symbols keep their place and their reading. -/
theorem congr (h : s.Spelt a) (hsize : a.size ≤ b.size)
    (htoken : ∀ id < a.size, (b.get id).toToken = (a.get id).toToken) : s.Spelt b := by
  have htokens := tokens_congr h.lt_size htoken
  refine ⟨fun id hid => Nat.lt_of_lt_of_le (h.lt_size id hid) hsize, ?_, ?_⟩
  · rw [htokens]
    exact h.proper
  · rw [htokens]
    exact h.text_eq

theorem append (h : s.Spelt a) {ts : List Token} (hts : ∀ t ∈ ts, t.Proper)
    (parent : Option SymbolId) :
    (s.append a ts parent).1.Spelt (s.append a ts parent).2 := by
  obtain ⟨htokens, htext⟩ := tokens_append h.lt_size ts parent
  obtain ⟨hsize, hsymbols, -, -⟩ := s.append_spec a ts parent
  refine ⟨?_, ?_, ?_⟩
  · intro id hid
    rw [hsymbols] at hid
    rw [hsize]
    rcases List.mem_append.mp hid with hid | hid
    · exact Nat.lt_of_lt_of_le (h.lt_size id hid) (Nat.le_add_right _ _)
    · exact (List.mem_range'_1.mp hid).2
  · rw [htokens]
    exact List.forall_mem_append.mpr ⟨h.proper, hts⟩
  · rw [htokens, htext, h.text_eq, render_append]

/-- **The symbols of a sentence are told from its text**, but for their arguments. -/
theorem map_reading_parse [Scalar α] [Numeral α] [RandomSource ρ α] (h : s.Spelt a) (source : ρ) :
    (parse s.text source).1.tokens.map Token.reading = (s.tokens a).map Token.reading := by
  rw [h.text_eq, Token.parse_render h.proper]

end Spelt

end Sentence

/-! ### Writing block by block -/

/-- Expanding a symbol puts at the end what is read of the alternative that was drawn, if there is
one. -/
theorem Run.expand_tokens [Scalar α] [Numeral α] [RandomSource ρ α] (r : Run α W) (id : SymbolId)
    (excluded : List Nat) {next : Sentence} {s : RunState W ρ} (h : next.Spelt s.arena) :
    (r.expand id excluded next s).1.Spelt (r.expand id excluded next s).2.arena ∧
    ∃ ts, (r.expand id excluded next s).1.tokens (r.expand id excluded next s).2.arena =
        next.tokens s.arena ++ ts ∧
      (ts = [] ∨ ∃ (drawn : Drawn) (source : ρ),
        (r.rules.lookup (s.arena.get id).name excluded s.source).1 = some drawn ∧
        ts = (parse drawn.template source).1.tokens) := by
  have htoken (c : Option Nat) (j : SymbolId) :
      ((s.arena.setChosen id c).get j).toToken = (s.arena.get j).toToken := by
    obtain ⟨_, hg⟩ := s.arena.get_setChosen id j c
    rw [hg]
  have hchosen (c : Option Nat) : next.Spelt (s.arena.setChosen id c) :=
    h.congr (by simp) fun j _ => htoken c j
  have hsame (c : Option Nat) : next.tokens (s.arena.setChosen id c) = next.tokens s.arena :=
    Sentence.tokens_congr h.lt_size fun j _ => htoken c j
  rcases hl : r.rules.lookup (s.arena.get id).name excluded s.source with ⟨- | drawn, source⟩
  · simp only [expand, hl]
    exact ⟨hchosen none, [], by simpa using hsame none, .inl rfl⟩
  · simp only [expand, hl]
    have hproper : ∀ t ∈ (parse drawn.template source).1.tokens, t.Proper :=
      fun t ht => Token.proper_of_mem_parse ht
    refine ⟨(hchosen (some drawn.index)).append hproper (some id), _, ?_,
      .inr ⟨drawn, source, rfl, rfl⟩⟩
    have happend := Sentence.tokens_append (hchosen (some drawn.index)).lt_size
      (parse drawn.template source).1.tokens (some id)
    rw [← hsame (some drawn.index)]
    exact happend.1

variable [RandomSource ρ Float32]

/-- **What is written for a symbol is a block**: nothing, or what is read of the
alternative that was drawn. -/
theorem Run.expand_block (hρ : RandomSource.InUnit ρ) {r : Run Float32 W}
    {rules : List (Rule Float32)} (hrules : r.rules = .ofList rules) (source : ρ) (id : SymbolId)
    (excluded : List Nat) {next : Sentence} {s : RunState W ρ} (h : next.Spelt s.arena) :
    ∃ block, Expansion rules source (s.arena.get id).name block ∧
      (r.expand id excluded next s).1.text = next.text ++ block ∧
      (r.expand id excluded next s).1.Spelt (r.expand id excluded next s).2.arena := by
  obtain ⟨hspelt, ts, htokens, hts⟩ := r.expand_tokens id excluded h
  refine ⟨render ts, ?_, ?_, hspelt⟩
  · rcases hts with rfl | ⟨drawn, source', hdrawn, rfl⟩
    · exact .inl rfl
    obtain ⟨rule, x, hrule, -, hx, hblank, htemplate⟩ := RuleTable.lookup_eq_some_iff.mp hdrawn
    have hdraws : r.rules.Draws ρ (s.arena.get id).name excluded drawn.index :=
      ⟨s.source, drawn, hdrawn, rfl⟩
    -- the position that was drawn is one of positive probability
    have hpos : 0 < x.probability := by
      obtain ⟨rule', y, hrule', hy, hpos⟩ := hdraws.positiveAt hρ
      rw [hrule] at hrule'
      cases hrule'
      rw [hx] at hy
      cases hy
      exact hpos
    rw [hrules, RuleTable.rule?_ofList] at hrule
    refine .inr ⟨rule, x, hrule, List.mem_of_getElem? hx, hpos, hblank, ?_⟩
    rw [htemplate]
    exact render_parse x.template source' source
  · rw [hspelt.text_eq, htokens, render_append, ← h.text_eq]

/-- What has been written of a sentence into the arena `b`, since the arena was `a`, when of the
symbols `all` the last `ids` are still to be read: a block for each symbol that was expanded. -/
structure Rewriting (rules : List (Rule Float32)) (source : ρ) (a : Arena) (all ids : List SymbolId)
    (next : Sentence) (b : Arena) : Prop where
  size_le : a.size ≤ b.size
  token : ∀ id < a.size, (b.get id).toToken = (a.get id).toToken
  spelt : next.Spelt b
  blocks : ∃ read blocks, all = read ++ ids ∧
    List.Forall₂ (Expansion rules source)
      ((read.filter fun id => (a.get id).kind.expands).map fun id => (a.get id).name) blocks ∧
    next.text = String.join blocks

namespace Rewriting

variable {rules : List (Rule Float32)} {source : ρ} {a b c : Arena} {all ids : List SymbolId}
  {id : SymbolId} {next : Sentence}

theorem start (rules : List (Rule Float32)) (source : ρ) (a : Arena) (all : List SymbolId) :
    Rewriting rules source a all all .empty a where
  size_le := Nat.le_refl _
  token := fun _ _ => rfl
  spelt := .empty a
  blocks := ⟨[], [], rfl, .nil, rfl⟩

/-- Nothing is written when the symbols stay as they were read. -/
theorem congr (h : Rewriting rules source a all ids next b) (hsize : b.size ≤ c.size)
    (htoken : ∀ id < b.size, (c.get id).toToken = (b.get id).toToken) :
    Rewriting rules source a all ids next c where
  size_le := Nat.le_trans h.size_le hsize
  token := fun id hid =>
    (htoken id (Nat.lt_of_lt_of_le hid h.size_le)).trans (h.token id hid)
  spelt := h.spelt.congr hsize htoken
  blocks := h.blocks

theorem mem (h : Rewriting rules source a all (id :: ids) next b) : id ∈ all := by
  obtain ⟨read, -, rfl, -, -⟩ := h.blocks
  simp

theorem kind_eq (h : Rewriting rules source a all ids next b) (hid : id < a.size) :
    (b.get id).kind = (a.get id).kind :=
  congrArg Token.kind (h.token id hid)

/-- Nothing is written for a symbol that is not expanded. -/
theorem skip (hlt : ∀ id ∈ all, id < a.size) (h : Rewriting rules source a all (id :: ids) next b)
    (hk : (b.get id).kind.expands = false) : Rewriting rules source a all ids next b := by
  rw [h.kind_eq (hlt id h.mem)] at hk
  obtain ⟨read, blocks, hall, hblocks, htext⟩ := h.blocks
  refine ⟨h.size_le, h.token, h.spelt, read ++ [id], blocks, ?_, ?_, htext⟩
  · rw [hall, List.append_assoc]
    rfl
  · rw [List.filter_append, List.filter_cons_of_neg (by simp [hk]), List.filter_nil,
      List.append_nil]
    exact hblocks

/-- **One block is written for a symbol that is expanded.** -/
theorem expand {r : Run Float32 W} (hρ : RandomSource.InUnit ρ) (hrules : r.rules = .ofList rules)
    (hlt : ∀ id ∈ all, id < a.size) {s : RunState W ρ}
    (h : Rewriting rules source a all (id :: ids) next s.arena) (excluded : List Nat)
    (hk : (s.arena.get id).kind.expands = true) :
    Rewriting rules source a all ids (r.expand id excluded next s).1
      (r.expand id excluded next s).2.arena := by
  have hname : (s.arena.get id).name = (a.get id).name :=
    congrArg Token.name (h.token id (hlt id h.mem))
  rw [h.kind_eq (hlt id h.mem)] at hk
  obtain ⟨block, hblock, htext, hspelt⟩ :=
    r.expand_block hρ hrules source id excluded h.spelt
  obtain ⟨hgrow, htoken⟩ := r.expand_token id excluded next s
  obtain ⟨read, blocks, hall, hblocks, hjoin⟩ := h.blocks
  refine ⟨Nat.le_trans h.size_le hgrow, ?_, hspelt, read ++ [id], blocks ++ [block], ?_, ?_, ?_⟩
  · exact fun j hj => (htoken j (Nat.lt_of_lt_of_le hj h.size_le)).trans (h.token j hj)
  · rw [hall, List.append_assoc]
    rfl
  · rw [List.filter_append, List.filter_cons_of_pos (by simp [hk]), List.filter_nil,
      List.map_append]
    refine List.rel_append hblocks (.cons ?_ .nil)
    show Expansion rules source (a.get id).name block
    rw [← hname]
    exact hblock
  · rw [htext, hjoin, String.join_append, String.join_cons]
    simp

/-- **A sentence that is written in full is derived from the one that was read.** -/
theorem derives {s : Sentence} (h : Rewriting rules source a s.symbols.toList [] next b)
    (hs : s.Spelt a) : Derives rules source s.text next.text := by
  obtain ⟨read, blocks, hall, hblocks, htext⟩ := h.blocks
  rw [List.append_nil] at hall
  refine ⟨blocks, ?_, htext⟩
  rw [Token.map_name_filter_congr (hs.map_reading_parse source)]
  have htokens : ((s.tokens a).filter (·.kind.expands)).map Token.name =
      (read.filter fun id => (a.get id).kind.expands).map fun id => (a.get id).name := by
    unfold Sentence.tokens
    rw [hall, List.filter_map, List.map_map]
    rfl
  rw [htokens]
  exact hblocks

end Rewriting

variable {r : Run Float32 W} {rules : List (Rule Float32)}

/-- A sentence is written block by block, by a pass and anew. -/
theorem Rewriting.writeInvariant (hρ : RandomSource.InUnit ρ) (hrules : r.rules = .ofList rules)
    (source : ρ) {a : Arena} {all : List SymbolId} (hlt : ∀ id ∈ all, id < a.size) :
    WriteInvariant ρ r fun ids next b => Rewriting rules source a all ids next b where
  skip hk h := h.skip hlt hk
  congr hsize htoken h := h.congr hsize htoken
  expand hk h := h.expand hρ hrules hlt _ hk

variable [World W ρ]

/-! ### The sentences of a run -/

/-- The sentences of a state: those of the records and the current one. -/
def RunState.texts (s : RunState W ρ) : List String :=
  s.records.toList.map IterationRecord.sentence ++ [s.current.text]

/-- The sentences so far are a derivation from the starting text, and the one that is written anew
after a pass that failed is derived from the last one of the records. -/
structure Deriving (rules : List (Rule Float32)) (source : ρ) (start : String) (s : RunState W ρ) :
    Prop where
  current : s.current.Spelt s.arena
  head : s.texts.head? = some (render (parse start source).1.tokens)
  chain : s.texts.IsChain (Derives rules source)
  previous : (s.previous = none ∧ s.records.toList = []) ∨
    ∃ previous texts, s.previous = some previous ∧ previous.Spelt s.arena ∧
      s.records.toList.map IterationRecord.sentence = texts ++ [previous.text]

namespace Deriving

variable {source : ρ} {s s' t : RunState W ρ} {next : Sentence} {symbol : SymbolId}

omit [World W ρ] in
/-- The starting text is read. -/
theorem readStart (harena : t.arena = (r.readStart s).2.arena)
    (hcurrent : t.current = (r.readStart s).1) (hprevious : t.previous = none)
    (hrecords : t.records.toList = []) : Deriving rules source r.start t := by
  have hspelt : t.current.Spelt t.arena := by
    rw [harena, hcurrent]
    exact (Sentence.Spelt.empty s.arena).append (fun t ht => Token.proper_of_mem_parse ht) none
  have htext : t.current.text = render (parse r.start source).1.tokens := by
    have happend := Sentence.tokens_append (Sentence.Spelt.empty s.arena).lt_size
      (parse r.start s.source).1.tokens none
    have hread : (r.readStart s).1.text = "" ++ render (parse r.start s.source).1.tokens :=
      happend.2
    rw [hcurrent, hread, String.empty_append]
    exact render_parse r.start s.source source
  refine ⟨hspelt, ?_, ?_, .inl ⟨hprevious, hrecords⟩⟩
  · simp [RunState.texts, hrecords, htext]
  · simp [RunState.texts, hrecords]

omit [World W ρ] in
theorem begin (r : Run Float32 W) (w : W) (s source : ρ) :
    Deriving rules source r.start (r.begin w s) :=
  readStart rfl rfl rfl rfl

/-- A further sentence is derived from the last one. -/
theorem chain_concat {texts : List String} {text next : String}
    (h : (texts ++ [text]).IsChain (Derives rules source))
    (hnext : Derives rules source text next) :
    (texts ++ [text] ++ [next]).IsChain (Derives rules source) := by
  rw [List.append_assoc]
  exact List.isChain_append_cons_cons.mpr ⟨h, hnext, .singleton next⟩

/-- The next sentence is derived from the one that the pass has read. -/
theorem commit (hρ : RandomSource.InUnit ρ) (hrules : r.rules = .ofList rules)
    (h : Deriving rules source r.start s) (hp : r.pass s = .completed next s') :
    Deriving rules source r.start (s'.commit next) := by
  have hw : Rewriting rules source s.arena s.current.symbols.toList [] next s'.arena :=
    (Rewriting.writeInvariant hρ hrules source h.current.lt_size).completed hp (.start ..)
  have hcurrent : s'.current = s.current := by simpa [hp] using r.pass_current s
  have hrecords : s'.records = s.records := by simpa [hp] using r.pass_records s
  have hsentences : (s'.commit next).records.toList.map IterationRecord.sentence =
      s.records.toList.map IterationRecord.sentence ++ [s.current.text] := by
    show (s'.records.push _).toList.map IterationRecord.sentence = _
    rw [Array.toList_push, List.map_append, hrecords, ← hcurrent]
    rfl
  have htexts : (s'.commit next).texts = s.texts ++ [next.text] := by
    unfold RunState.texts
    rw [hsentences]
    rfl
  refine ⟨hw.spelt, ?_, ?_, .inr ⟨s.current, _, ?_, h.current.congr hw.size_le hw.token,
    hsentences⟩⟩
  · rw [htexts, List.head?_append, h.head]
    rfl
  · rw [htexts]
    exact chain_concat h.chain (hw.derives h.current)
  · rw [← hcurrent]
    rfl

/-- The sentence of another attempt is derived from the same one. -/
theorem retry (hρ : RandomSource.InUnit ρ) (hrules : r.rules = .ofList rules)
    (h : Deriving rules source r.start s) (hp : r.pass s = .violated symbol s') :
    Deriving rules source r.start (r.retry symbol s'.abandon) := by
  have harena := RunState.blame_abandon_arena symbol s'
  obtain ⟨hkept, hrecords, -, -⟩ := Run.retry_of_violated hp
  have hprevious : (s'.abandon.blame symbol).previous = s.previous := by
    rw [← hkept]
    exact (r.retry_previous symbol s'.abandon).symm
  rcases h.previous with ⟨hnone, hempty⟩ | ⟨previous, texts, hsome, hspelt, htexts⟩
  · -- without a sentence before, the starting text is read again
    have hstart : r.derive (s'.abandon.blame symbol) = r.readStart (s'.abandon.blame symbol) := by
      unfold Run.derive
      rw [hprevious, hnone]
    refine readStart (s := s'.abandon.blame symbol) ?_ ?_ (hkept.trans hnone) ?_
    · rw [← hstart]
      rfl
    · rw [← hstart]
      rfl
    · rw [hrecords, hempty]
  · -- the pass that failed has left the symbols of the sentence before as they were read
    have hold : previous.Spelt s'.arena := by
      obtain ⟨hsize, htoken⟩ := r.pass_token s
      rw [hp] at hsize htoken
      exact hspelt.congr hsize htoken
    have hspelt' : previous.Spelt (s'.abandon.blame symbol).arena := harena ▸ hold
    have hw := (Rewriting.writeInvariant hρ hrules source hspelt'.lt_size).derive
      (hprevious.trans hsome) (.start ..)
    have hnew : (r.retry symbol s'.abandon).texts =
        texts ++ [previous.text] ++ [(r.derive (s'.abandon.blame symbol)).1.text] := by
      unfold RunState.texts
      rw [hrecords, htexts]
      rfl
    have hchain := h.chain
    have hhead := h.head
    unfold RunState.texts at hchain hhead
    rw [htexts] at hchain hhead
    refine ⟨hw.spelt, ?_, ?_, .inr ⟨previous, texts, hkept.trans hsome, ?_, ?_⟩⟩
    · rw [hnew, List.head?_append]
      rw [List.head?_append] at hhead
      rcases hl : (texts ++ [previous.text]).head? with - | first
      · simp at hl
      · rw [hl] at hhead
        exact hhead
    · rw [hnew]
      exact chain_concat hchain.left_of_append (hw.derives hspelt')
    · exact hspelt'.congr hw.size_le hw.token
    · rw [hrecords, htexts]

/-- **At every pass of a run the sentences so far are a derivation.** -/
theorem of_reaches (hρ : RandomSource.InUnit ρ) (hrules : r.rules = .ofList rules) (source : ρ)
    {w : W} {s₀ : ρ} (h : r.Reaches (r.begin w s₀) s) : Deriving rules source r.start s := by
  induction h with
  | refl => exact begin r w s₀ source
  | tail _ hstep ih =>
    rcases Run.step_again hstep with ⟨next, s', hp, -, rfl⟩ | ⟨symbol, s', hp, rfl⟩
    · exact ih.commit hρ hrules hp
    · exact ih.retry hρ hrules hp

end Deriving

/-- **A run is a derivation of its grammar.**  The sentences of a report, up to the final one, begin
with what is read of the starting text, and each is derived from the one before by the rules,
whichever attempts failed in between.  What is read does not depend on the source. -/
theorem Run.derivation (hρ : RandomSource.InUnit ρ) (hrules : r.rules = .ofList rules) {fuel : Nat}
    {w : W} {s₀ : ρ} {f : Finished W ρ} {report : Report} (h : r.run? fuel w s₀ = some f)
    (hreport : f.outcome = .ok report) (source : ρ) :
    let texts := report.iterations.map IterationRecord.sentence ++ [report.finalSentence]
    texts.head? = some (render (parse r.start source).1.tokens) ∧
      texts.IsChain (Derives rules source) := by
  intro texts
  have hsucceed {t : RunState W ρ} {termination : Termination}
      (ht : Deriving rules source r.start t) (hok : (t.succeed termination).outcome = .ok report) :
      texts.head? = some (render (parse r.start source).1.tokens) ∧
        texts.IsChain (Derives rules source) := by
    simp only [RunState.succeed, t.finish_eq] at hok
    cases hok
    exact ⟨ht.head, ht.chain⟩
  obtain ⟨t, hr, ht⟩ := reaches_of_run? h
  have hderiving := Deriving.of_reaches hρ hrules source hr
  rcases step_done ht with ⟨-, rfl⟩ | ⟨next, s', -, hp, -, rfl⟩ | ⟨symbol, s', -, hp, rfl⟩
  · exact hsucceed hderiving hreport
  · exact hsucceed (hderiving.commit hρ hrules hp) hreport
  · simp only [RunState.giveUp] at hreport
    cases hreport

/-- A grammar with a rule for a name with blanks, another one for the same name, which does not
count, and a symbol of no kind in its starting text. -/
def Run.rewriting : Run Float32 Rehearsal where
  rules := .ofList [⟨" A ", [⟨1, "<o B><m Turn>"⟩, ⟨2, "<o C>"⟩, ⟨0, "<o D>"⟩]⟩,
    ⟨"A", [⟨1, "<o D>"⟩]⟩]
  settings := ⟨.bounded 2, false, 3⟩
  start := "<o A> <m Turn><x Y>"
  violates := Rehearsal.violates

/-- A rehearsal that objects to one of the alternatives. -/
def Rehearsal.rewriting : Rehearsal := ⟨#[], false, [], [], ["C"], #[]⟩

/-- The second sentence of the report is that of the attempt that did not fail. -/
theorem Run.derivation_rewriting :
    RandomSource.InUnit Halves ∧
    ∃ (f : Finished Rehearsal Halves) (report : Report),
      rewriting.run? 5 .rewriting Halves.half = some f ∧ f.outcome = .ok report ∧
      report.recoveries = 1 ∧ report.finalSentence = "" ∧
      report.iterations.map IterationRecord.sentence = ["<o A><m Turn><x Y>", "<o B><m Turn>"] ∧
      (report.iterations.map IterationRecord.sentence ++ [report.finalSentence]).IsChain
        (Derives [⟨" A ", [⟨1, "<o B><m Turn>"⟩, ⟨2, "<o C>"⟩, ⟨0, "<o D>"⟩]⟩,
          ⟨"A", [⟨1, "<o D>"⟩]⟩] Halves.half) := by
  have hρ : RandomSource.InUnit Halves := by
    rintro ⟨⟩
    decide +kernel
  have hmap : (rewriting.run? 5 .rewriting Halves.half).map (fun f => f.outcome.toOption.map
      fun report => (report.recoveries, report.finalSentence,
        report.iterations.map IterationRecord.sentence)) =
      some (some (1, "", ["<o A><m Turn><x Y>", "<o B><m Turn>"])) := by
    decide +kernel
  obtain ⟨f, hf, hc⟩ := Option.map_eq_some_iff.mp hmap
  obtain ⟨report, hreport, hc⟩ := Option.map_eq_some_iff.mp hc
  have hok : f.outcome = .ok report := by
    rcases ho : f.outcome with failure | report'
    · rw [ho] at hreport
      cases hreport
    · rw [ho] at hreport
      cases hreport
      rfl
  obtain ⟨hrecoveries, hrest⟩ := Prod.mk.inj hc
  obtain ⟨hfinal, hsentences⟩ := Prod.mk.inj hrest
  exact ⟨hρ, f, report, hf, hok, hrecoveries, hfinal, hsentences,
    (derivation hρ rfl hf hok Halves.half).2⟩

end SpatialGrammar
