import QueryDigest.Pattern.Forms
import QueryDigest.Pattern.Search

/-!
The table that a LOAD DATA statement fills: whatever stands behind `INTO TABLE` up to the next
white space.
-/

namespace QueryDigest.LoadTarget

open Pattern

def notBlank (c : Char) : Bool :=
  !Unicode.isBlank c

/-- The clause that names the table, with the name as the group. -/
def clause : Pattern :=
  keyword "INTO TABLE".toList ++ blanks ++ .group (someOf notBlank)

/-- The table named first in a statement, as it is spelled there. -/
def ofStatement? (t : Text) : Option Text :=
  (clause.find t).map (·.group 0)

end QueryDigest.LoadTarget
