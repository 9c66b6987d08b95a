/-
SpatialGrammar/Digest/Fingerprint.lean

Digests of sentences and of runs.

Both hash a byte string that begins with a label of its own kind, so that no
sentence is hashed like a run.  A sentence's byte string goes on with the length of
the text and the text itself, a run's with the digests of its sentences in order.
-/
import SpatialGrammar.Digest.Blake3

namespace SpatialGrammar

namespace Fingerprint

/-- The bytes of a text in UTF-8. -/
def bytesOfText (s : String) : List UInt8 := s.toByteArray.data.toList

/-- The eight bytes of a word, the lowest first. -/
def littleEndian (w : UInt64) : List UInt8 :=
  (List.range 8).map fun i => (w >>> (8 * UInt64.ofNat i)).toUInt8

/-- What is hashed for a sentence. -/
def sentenceBytes (text : String) : List UInt8 :=
  bytesOfText "strata:sentence:" ++ littleEndian (UInt64.ofNat text.utf8ByteSize) ++
    bytesOfText text

/-- What is hashed for a run, given the digests of its sentences. -/
def runBytes (sentences : List Digest) : List UInt8 :=
  bytesOfText "strata:run:" ++ sentences.flatMap Vector.toList

/-- The digest of a sentence. -/
def ofSentence (text : String) : Digest := Blake3.hash (sentenceBytes text)

/-- The digest of a run, given the digests of its sentences. -/
def ofRun (sentences : List Digest) : Digest := Blake3.hash (runBytes sentences)

/-- Two hexadecimal digits for each byte. -/
def hexOfBytes (bytes : List UInt8) : String :=
  String.ofList <| bytes.flatMap fun b =>
    [Nat.digitChar (b.toNat / 16), Nat.digitChar (b.toNat % 16)]

/-- The digits of a digest. -/
def hex (d : Digest) : String := hexOfBytes d.toList

/-- The digits of the first eight bytes of a digest. -/
def shortHex (d : Digest) : String := hexOfBytes (d.toList.take 8)

end Fingerprint

end SpatialGrammar
