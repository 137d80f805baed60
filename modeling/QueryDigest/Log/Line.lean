import QueryDigest.Text.Basic
import QueryDigest.Unicode.Blank
import QueryDigest.Unicode.Word

/-!
Statements in the lines of a query log. A line holds at most one statement, perhaps with a
delimiter and more text behind it; lines of notes and other noise hold none.
-/

namespace QueryDigest.Log

/-- A line without white space at its end, up to its first delimiter. -/
def beforeDelimiter (line : Text) : Text :=
  (line.dropRightWhile Unicode.isBlank).takeWhile (· != ';')

def startsStatement : Text → Bool
  | c :: _ => Unicode.isWord c || c == '('
  | [] => false

/-- The statement in a line. A line that starts with a number sign is a note. -/
def statementIn (line : Text) : Option Text :=
  let head := beforeDelimiter line
  if head.head? = some '#' then none
  else
    let statement := head.dropWhile Unicode.isBlank
    if startsStatement statement then some statement else none

end QueryDigest.Log
