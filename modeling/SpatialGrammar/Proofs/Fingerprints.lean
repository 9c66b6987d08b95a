/-
SpatialGrammar/Proofs/Fingerprints.lean

What can be told from a fingerprint.

A digest tells no more than the byte string that is hashed for it, so the byte strings come first.
That of a sentence ends with the text behind a beginning of fixed length, that of a run is cut into
digests of one length, and the two begin differently: no byte string stands for two sentences, for
two runs, or for one of each (`Fingerprint.sentenceBytes_injective`,
`Fingerprint.runBytes_injective`, `Fingerprint.sentenceBytes_ne_runBytes`).

There are more byte strings than digests, so the hash function cannot keep all of them apart.  It is
only asked to keep apart those of some set, and the conclusions are about what is hashed to
digests of strings of that set.  For two reports these are finitely many (`Report.hashed`).
-/
import Mathlib.Data.List.Nodup
import Mathlib.Data.Set.Function
import SpatialGrammar.Derivation.Report

namespace SpatialGrammar

namespace Fingerprint

/-! ### Byte strings -/

theorem bytesOfText_injective : Function.Injective bytesOfText := by
  intro text text' h
  apply String.toByteArray_inj.mp
  apply ByteArray.ext
  exact Array.toList_inj.mp h

/-- Pieces of one length are told from their concatenation. -/
theorem flatMap_injective {α β : Type} {f : α → List β} {n : Nat} (hn : n ≠ 0)
    (hlength : ∀ a, (f a).length = n) (hf : Function.Injective f) :
    Function.Injective (List.flatMap f) := by
  have hne (a : α) (rest : List β) : f a ++ rest ≠ [] := by
    intro h
    have hnil := hlength a
    rw [(List.append_eq_nil_iff.mp h).1] at hnil
    exact hn hnil.symm
  intro l
  induction l with
  | nil =>
    intro l' h
    cases l' with
    | nil => rfl
    | cons a l' => exact absurd h.symm (hne a _)
  | cons a l ih =>
    intro l' h
    cases l' with
    | nil => exact absurd h (hne a _)
    | cons a' l' =>
      rw [List.flatMap_cons, List.flatMap_cons] at h
      obtain ⟨hfirst, hrest⟩ := List.append_inj h ((hlength a).trans (hlength a').symm)
      rw [hf hfirst, ih hrest]

/-- **No byte string stands for two texts**, however long they are. -/
theorem sentenceBytes_injective : Function.Injective sentenceBytes := by
  intro text text' h
  apply bytesOfText_injective
  -- the label and the length take the same number of bytes for every text
  exact (List.append_inj h rfl).2

/-- **No byte string stands for two lists of digests**, however many there are. -/
theorem runBytes_injective : Function.Injective runBytes := by
  intro digests digests' h
  refine flatMap_injective (n := 32) (by decide) (fun d => d.length_toList) ?_
    (List.append_cancel_left h)
  exact fun _ _ => Vector.toList_inj.mp

/-- **None stands for a sentence and for a run**: the labels differ in their eighth letter. -/
theorem sentenceBytes_ne_runBytes (text : String) (digests : List Digest) :
    sentenceBytes text ≠ runBytes digests := by
  intro h
  have hsentence : (sentenceBytes text)[7]? = some 115 := rfl
  have hrun : (runBytes digests)[7]? = some 114 := rfl
  rw [h, hrun] at hsentence
  exact absurd hsentence (by decide)

end Fingerprint

open Fingerprint

/-- The byte strings that are hashed for the digest of a report. -/
def Report.hashed (r : Report) : List (List UInt8) :=
  runBytes (r.iterations.map IterationRecord.digest) ::
    r.iterations.map fun i => sentenceBytes i.sentence

section

variable {strings : Set (List UInt8)} (h : Set.InjOn Blake3.hash strings)

include h

theorem Fingerprint.eq_of_ofSentence_eq {text text' : String} (ht : sentenceBytes text ∈ strings)
    (ht' : sentenceBytes text' ∈ strings) (heq : ofSentence text = ofSentence text') :
    text = text' :=
  sentenceBytes_injective (h ht ht' heq)

theorem Fingerprint.eq_of_ofRun_eq {digests digests' : List Digest}
    (hd : runBytes digests ∈ strings) (hd' : runBytes digests' ∈ strings)
    (heq : ofRun digests = ofRun digests') :
    digests = digests' :=
  runBytes_injective (h hd hd' heq)

/-- Reports with one digest have the same sentences. -/
theorem Report.sentences_eq {r r' : Report} (hr : ∀ b ∈ r.hashed, b ∈ strings)
    (hr' : ∀ b ∈ r'.hashed, b ∈ strings) (heq : r.digest = r'.digest) :
    r.iterations.map IterationRecord.sentence = r'.iterations.map IterationRecord.sentence := by
  obtain ⟨hrun, hsentences⟩ := List.forall_mem_cons.mp hr
  obtain ⟨hrun', hsentences'⟩ := List.forall_mem_cons.mp hr'
  -- first the digests of the iterations are the same, and then each sentence is
  have hdigests := eq_of_ofRun_eq h hrun hrun' heq
  have hlength : r.iterations.length = r'.iterations.length := by
    simpa using congrArg List.length hdigests
  apply List.ext_getElem
  · simpa using hlength
  · intro k hk hk'
    rw [List.getElem_map, List.getElem_map]
    rw [List.length_map] at hk hk'
    apply eq_of_ofSentence_eq h
    · exact hsentences _ (List.mem_map_of_mem (List.getElem_mem hk))
    · exact hsentences' _ (List.mem_map_of_mem (List.getElem_mem hk'))
    · have hdigest := List.getElem_of_eq hdigests (i := k) (by simpa using hk)
      simpa [IterationRecord.digest] using hdigest

end

/-- **A digest tells what it was made of**, as far as the hash function keeps byte strings apart.
The byte strings of different texts, of different lists of digests, and of a text and such a list
are different.  So on a set of byte strings that have different digests, different texts have
different digests, different lists of digests do, no sentence has the digest of a run, and two
reports with one digest have the same number of iterations and the same sentence in each. -/
theorem Fingerprint.tells_apart :
    Function.Injective sentenceBytes ∧ Function.Injective runBytes ∧
    (∀ text digests, sentenceBytes text ≠ runBytes digests) ∧
    ∀ strings : Set (List UInt8), Set.InjOn Blake3.hash strings →
      (∀ text text', sentenceBytes text ∈ strings → sentenceBytes text' ∈ strings →
        ofSentence text = ofSentence text' → text = text') ∧
      (∀ digests digests', runBytes digests ∈ strings → runBytes digests' ∈ strings →
        ofRun digests = ofRun digests' → digests = digests') ∧
      (∀ text digests, sentenceBytes text ∈ strings → runBytes digests ∈ strings →
        ofSentence text ≠ ofRun digests) ∧
      ∀ r r' : Report, (∀ b ∈ r.hashed, b ∈ strings) → (∀ b ∈ r'.hashed, b ∈ strings) →
        r.digest = r'.digest →
        r.iterations.length = r'.iterations.length ∧
        r.iterations.map IterationRecord.sentence = r'.iterations.map IterationRecord.sentence := by
  refine ⟨sentenceBytes_injective, runBytes_injective, sentenceBytes_ne_runBytes, fun strings h =>
    ⟨fun _ _ => eq_of_ofSentence_eq h, fun _ _ => eq_of_ofRun_eq h, ?_, ?_⟩⟩
  · intro text digests ht hd heq
    exact sentenceBytes_ne_runBytes text digests (h ht hd heq)
  · intro r r' hr hr' heq
    have hsentences := Report.sentences_eq h hr hr' heq
    exact ⟨by simpa using congrArg List.length hsentences, hsentences⟩

/-- A report of one iteration. -/
def Report.brief (entity : EntityId) : Report where
  iterations := [⟨0, "<o A>", 0⟩]
  finalSentence := ""
  termination := .converged
  recoveries := 0
  diagnostics := []
  spawned := [entity]

/-- Two sentences and a run have different digests, and two reports that differ in what was spawned,
but not in their sentence, have one digest. -/
theorem Fingerprint.tells_apart_brief :
    let strings := sentenceBytes "<o B>" :: (Report.brief 0).hashed
    Set.InjOn Blake3.hash {b | b ∈ strings} ∧
      ofSentence "<o A>" ≠ ofSentence "<o B>" ∧
      ofSentence "<o A>" ≠ (Report.brief 0).digest ∧
      (Report.brief 0).digest = (Report.brief 1).digest ∧ Report.brief 0 ≠ Report.brief 1 ∧
      (Report.brief 0).iterations.map IterationRecord.sentence =
        (Report.brief 1).iterations.map IterationRecord.sentence := by
  intro strings
  have hinj : Set.InjOn Blake3.hash {b | b ∈ strings} := by
    have hnodup : (strings.map Blake3.hash).Nodup := by decide +kernel
    exact fun b hb b' hb' => List.inj_on_of_nodup_map hnodup hb hb'
  obtain ⟨-, -, -, htells⟩ := tells_apart
  obtain ⟨hsentence, -, hkinds, hreports⟩ := htells _ hinj
  have hmem : ∀ b ∈ (Report.brief 0).hashed, b ∈ strings := fun b => List.mem_cons_of_mem _
  refine ⟨hinj, ?_, ?_, rfl, by decide, (hreports _ (Report.brief 1) hmem hmem rfl).2⟩
  · intro heq
    have htext := hsentence _ _ (List.mem_cons_of_mem _ (List.mem_cons_of_mem _ List.mem_cons_self))
      List.mem_cons_self heq
    exact absurd htext (by decide)
  · exact hkinds _ _ (List.mem_cons_of_mem _ (List.mem_cons_of_mem _ List.mem_cons_self))
      (List.mem_cons_of_mem _ List.mem_cons_self)

end SpatialGrammar
