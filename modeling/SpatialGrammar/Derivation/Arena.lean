/-
SpatialGrammar/Derivation/Arena.lean

The symbols of a run and the sentences made of them.

A symbol knows the one from whose alternative it came, its producer, which is always
older.  So the walk from a symbol to its producer, that one's producer and so on
ends, and `Arena.ancestors` recurses on the handle.
-/
import SpatialGrammar.Digest.Fingerprint
import SpatialGrammar.Names.Handle
import SpatialGrammar.Symbol.Token

namespace SpatialGrammar

/-- A symbol in a run. -/
structure Symbol extends Token where
  /-- Its producer; a symbol of the starting text has none. -/
  parent : Option SymbolId
  /-- The alternative by which it was last expanded. -/
  chosen : Option Nat
  /-- The entity made for it. -/
  entity : Option EntityId
  deriving DecidableEq, Repr

/-- Stands in for a symbol that does not exist: of no kind and without a producer. -/
def Symbol.absent : Symbol := ⟨⟨"", .invalid, "", ""⟩, none, none, none⟩

/-- All symbols of a run in the order in which they were made. -/
structure Arena where
  symbols : Array Symbol
  deriving DecidableEq, Repr

namespace Arena

/-- No symbols. -/
def empty : Arena := ⟨#[]⟩

/-- The number of symbols, which is also the handle of the next one. -/
def size (a : Arena) : Nat := a.symbols.size

/-- The symbol with the given handle. -/
def get (a : Arena) (id : SymbolId) : Symbol := a.symbols.getD id .absent

/-- A further symbol, as read, from the given producer. -/
def insert (a : Arena) (token : Token) (parent : Option SymbolId) : Arena :=
  ⟨a.symbols.push ⟨token, parent, none, none⟩⟩

/-- Notes by which alternative a symbol was expanded. -/
def setChosen (a : Arena) (id : SymbolId) (chosen : Option Nat) : Arena :=
  ⟨a.symbols.modify id fun s => { s with chosen }⟩

/-- Notes the entity made for a symbol. -/
def setEntity (a : Arena) (id : SymbolId) (entity : EntityId) : Arena :=
  ⟨a.symbols.modify id fun s => { s with entity := some entity }⟩

@[simp] theorem size_insert (a : Arena) (token : Token) (parent : Option SymbolId) :
    (a.insert token parent).size = a.size + 1 := by
  simp [insert, size]

@[simp] theorem size_setChosen (a : Arena) (id : SymbolId) (chosen : Option Nat) :
    (a.setChosen id chosen).size = a.size := by
  simp [setChosen, size]

@[simp] theorem size_setEntity (a : Arena) (id : SymbolId) (entity : EntityId) :
    (a.setEntity id entity).size = a.size := by
  simp [setEntity, size]

/-- A symbol that has been entered is found under the next handle, and no other changes. -/
theorem get_insert (a : Arena) (token : Token) (parent : Option SymbolId) (id : SymbolId) :
    (a.insert token parent).get id =
      if id = a.size then ⟨token, parent, none, none⟩ else a.get id := by
  simp only [insert, get, size, Array.getD_eq_getD_getElem?, Array.getElem?_push]
  split <;> rfl

/-- The first producers above a symbol, at most `fuel` of them, nearest first. -/
def ancestorsWithin (a : Arena) : Nat → SymbolId → List SymbolId
  | 0, _ => []
  | fuel + 1, id =>
    match (a.get id).parent with
    | none => []
    | some p => p :: ancestorsWithin a fuel p

/-- The producers above a symbol, nearest first.  Each is older than the one below it, so there are
no more of them than the handle counts. -/
def ancestors (a : Arena) (id : SymbolId) : List SymbolId := a.ancestorsWithin id id

/-- The entities of the producers above a symbol, nearest first; a producer without an entity keeps
its place. -/
def lineage (a : Arena) (id : SymbolId) : List (Option EntityId) :=
  (a.ancestors id).map fun p => (a.get p).entity

end Arena

/-- Symbols in order, and their texts one after another. -/
structure Sentence where
  symbols : Array SymbolId
  text : String
  deriving DecidableEq, Repr

namespace Sentence

/-- No symbols. -/
def empty : Sentence := ⟨#[], ""⟩

/-- Whether there is no symbol. -/
def isEmpty (s : Sentence) : Bool := s.symbols.isEmpty

/-- The digest of the text. -/
def digest (s : Sentence) : Digest := Fingerprint.ofSentence s.text

/-- Enters a symbol as read into the arena and puts it at the end of the sentence.  Its handle is
the number of the symbols before it, also past the last handle of 32 bits (see `SymbolId`). -/
def push (parent : Option SymbolId) (s : Sentence × Arena) (token : Token) : Sentence × Arena :=
  (⟨s.1.symbols.push s.2.size, s.1.text ++ token.raw⟩, s.2.insert token parent)

/-- Enters symbols as read into the arena and puts them at the end of the sentence, in order. -/
def append (s : Sentence) (arena : Arena) (tokens : List Token) (parent : Option SymbolId) :
    Sentence × Arena :=
  tokens.foldl (push parent) (s, arena)

end Sentence

end SpatialGrammar
