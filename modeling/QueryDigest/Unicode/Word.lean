import QueryDigest.Unicode.Ranges
import QueryDigest.Unicode.WordTable

/-!
Word characters: what identifiers and keywords are made of.
-/

namespace QueryDigest.Unicode

def wordRanges : Ranges :=
  .ofIntervals wordIntervals

/-- A letter, digit or underscore in ASCII, and beyond it what the table lists. -/
def isWord (c : Char) : Bool :=
  if c.toNat < 0x80 then c.isAlphanum || c == '_' else wordRanges.contains c.toNat

end QueryDigest.Unicode
