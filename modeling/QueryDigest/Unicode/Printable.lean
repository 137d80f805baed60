import QueryDigest.Unicode.PrintableTable
import QueryDigest.Unicode.Ranges

/-!
Which characters quoted text shows as they are.
-/

namespace QueryDigest.Unicode

def invisibleRanges : Ranges :=
  .ofIntervals invisibleIntervals

def extendingRanges : Ranges :=
  .ofIntervals extendingIntervals

def ignorableRanges : Ranges :=
  .ofIntervals ignorableIntervals

/-- A character that stands for itself in quoted text, quotes and backslashes apart. -/
def isShown (c : Char) : Bool :=
  if c.toNat < 0x80 then 0x20 ≤ c.toNat && c.toNat < 0x7F
  else
    !invisibleRanges.contains c.toNat && !extendingRanges.contains c.toNat
      && !ignorableRanges.contains c.toNat

end QueryDigest.Unicode
