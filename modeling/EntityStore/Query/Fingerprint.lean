import EntityStore.Query.Document
import EntityStore.Digest.Blake3
import EntityStore.Text.Hex

/-!
# Fingerprints

The fingerprint of a query is the hash of the text of its shape. Values of parameters have no part
in it.
-/

namespace EntityStore

structure Fingerprint where
  bytes : List UInt8
deriving DecidableEq, Inhabited

namespace Fingerprint

def hex (f : Fingerprint) : String := Hex.encode f.bytes

def inspect (f : Fingerprint) : String :=
  "QueryFingerprint(" ++ Hex.encode (f.bytes.take 8) ++ ")"

end Fingerprint

def QueryShape.text (s : QueryShape) : String := s.toJson.text

def QueryShape.fingerprint (s : QueryShape) : Fingerprint :=
  ⟨Blake3.hash s.text.toUTF8.data.toList⟩

def Query.fingerprint (q : Query) : Fingerprint := q.shape.fingerprint

end EntityStore
