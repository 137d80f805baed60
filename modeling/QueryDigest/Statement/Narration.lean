import QueryDigest.Statement.Fingerprint

/-!
What the log says while a statement is digested.
-/

namespace QueryDigest.Narration

def ofTables (statement : Text) : List Text :=
  ("Getting tables for ".toList ++ statement) :: (Extraction.ofStatement statement).narration

def ofClassification (statement : Text) : List Text :=
  (Classification.ofStatement statement).narration

/-- The log of a fingerprint: tables are looked for only where the fingerprint shows them. -/
def ofFingerprint (statement : Text) : List Text :=
  let c := Classification.ofStatement statement
  c.narration ++ if Fingerprint.needsNoTables c.words then [] else ofTables statement

end QueryDigest.Narration
