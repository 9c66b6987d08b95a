/-
SpatialGrammar/Proofs/DocumentText.lean

Documents are read back from their own text.

The text of a document spells the value that it is written as, so reading the text comes to
reading that value.  A document that was read has whole numbers that fit their fields; what is
left to ask is whether its single-precision numbers are finite.  A numeral such as `1e39` is
read as an infinity, which is written as `null`, and `null` is no number.
-/
import SpatialGrammar.Document.Validity
import SpatialGrammar.Proofs.DocumentRecords

namespace SpatialGrammar.Document

variable {text : String} {d : Document Float32}

/-- What is read of a text is a document that fits and whose parts fit together. -/
theorem fits_and_check_of_read (h : read text = .ok d) : d.Fits ∧ d.check = .ok () := by
  unfold read at h
  split at h
  next => cases h
  next d' hd =>
    obtain ⟨v, -, hv⟩ := Option.bind_eq_some_iff.mp hd
    split at h
    next hcheck =>
      cases h
      exact ⟨fits_of_ofJson? hv, hcheck⟩
    next => cases h

/-- The value that the text of a document spells is read as the document if its numbers are
finite. -/
theorem Fits.ofJson?_pretty (h : d.Fits) :
    (Json.read? d.pretty).bind ofJson? = Json.gotBack d.numbers d := by
  rw [pretty, Json.read?_pretty (agrees.spelled d), Option.bind_some, agrees.read_write h]

theorem Fits.read_pretty_of_finite (h : d.Fits) (hcheck : d.check = .ok ())
    (hfinite : d.numbers.all Binary32.isFinite) : read d.pretty = .ok d := by
  simp [read, h.ofJson?_pretty, Json.gotBack, hfinite, hcheck]

theorem Fits.read_pretty_of_not_finite (h : d.Fits)
    (hinfinite : d.numbers.all Binary32.isFinite = false) :
    read d.pretty = .error .malformed := by
  simp [read, h.ofJson?_pretty, Json.gotBack, hinfinite]

/-- **A document that was read is read back from its text if its numbers are finite; if one is not,
the text is refused.** -/
theorem read_pretty (h : read text = .ok d) :
    read d.pretty = if d.numbers.all Binary32.isFinite then .ok d else .error .malformed := by
  obtain ⟨hfits, hcheck⟩ := fits_and_check_of_read h
  cases hfinite : d.numbers.all Binary32.isFinite with
  | true => exact hfits.read_pretty_of_finite hcheck hfinite
  | false => exact hfits.read_pretty_of_not_finite hfinite

/-- A rule with a weight that no binary fraction equals, a tile and a chain of such tiles. -/
def tilesText : String :=
  "\x7b\"start\":\"<o A>\",\"rules\":[\x7b\"input\":\"A\",\"outputs\":[" ++
    "\x7b\"probability\":0.1,\"template\":\"<o B>\"\x7d]\x7d],\"prefabs\":[" ++
    "\x7b\"name\":\"T\",\"kind\":\"tile\",\"size\":[1,2,16777217]\x7d," ++
    "\x7b\"name\":\"G\",\"kind\":\"generator\",\"count\":2,\"tiles\":[\"T\"]\x7d],\"seed\":7\x7d"

/-- What that text is read as. -/
def tiles : Document Float32 where
  start := "<o A>"
  engine := .default
  rules := [⟨"A", [⟨Float32.ofBits 0x3dcccccd, "<o B>"⟩]⟩]
  links := []
  prefabs := [
    ⟨"T", .tile ⟨⟨1, 2, Float32.ofBits 0x4b800000⟩, .none, .zero⟩⟩,
    ⟨"G", .generator ⟨⟨2, .xz, none, none, false, true⟩, ["T"]⟩⟩]
  space := none
  scatter := none
  repetitions := 1
  seed := some 7

theorem read_pretty_tiles : read tilesText = .ok tiles ∧ read tiles.pretty = .ok tiles := by
  have hread : read tilesText = .ok tiles := by decide +kernel
  exact ⟨hread, (read_pretty hread).trans (if_pos (by decide +kernel))⟩

/-- An area that begins beyond every finite number. -/
def overflowText : String :=
  "\x7b\"start\":\"\",\"scatter\":\x7b\"origin\":[1e39,0,0],\"size\":[1,1,1]\x7d\x7d"

/-- What that text is read as. -/
def overflow : Document Float32 where
  start := ""
  engine := .default
  rules := []
  links := []
  prefabs := []
  space := none
  scatter := some ⟨⟨Binary32.infinity false, 0, 0⟩, ⟨1, 1, 1⟩⟩
  repetitions := 1
  seed := none

theorem not_read_pretty_overflow :
    ¬ ∀ (text : String) (d : Document Float32), read text = .ok d → read d.pretty = .ok d := by
  intro hall
  have hread : read overflowText = .ok overflow := by decide +kernel
  have hinfinite : overflow.numbers.all Binary32.isFinite = false := by decide +kernel
  have hrefused := (fits_and_check_of_read hread).1.read_pretty_of_not_finite hinfinite
  cases (hall overflowText overflow hread).symm.trans hrefused

end SpatialGrammar.Document
