import QueryDigest.Statement.Identifier
import QueryDigest.Pattern.Search

/-!
Clauses that name tables: FROM, JOIN, INTO or UPDATE with a list of names behind it. The UPDATE of
`ON DUPLICATE KEY UPDATE` names columns and opens no such clause.
-/

namespace QueryDigest.TableClause

open Pattern

/-- What may stand between a name and the comma after it: an alias, with or without AS. -/
def otherName : Pattern :=
  blanks ++ optional (keyword "AS".toList ++ blanks) ++ word

/-- A list of names, with aliases in front of the commas only. -/
def nameList : Pattern :=
  Identifier.pattern
    ++ .many (optional otherName ++ char ',' ++ maybeBlanks ++ Identifier.pattern)

/-- A clause that may name tables. Its groups are the keyword and the list of names. -/
def pattern : Pattern :=
  wordEdge ++ .group (keywords ["FROM".toList, "JOIN".toList, "UPDATE".toList, "INTO".toList])
    ++ wordEdge ++ maybeBlanks ++ optional (char '(') ++ .group nameList

/-- Whether KEY and one character of white space stand in front, the nearest character first. -/
def followsKey : (before : Text) → Bool
  | blank :: y :: e :: k :: _ =>
    Unicode.isBlank blank && [k, e, y].map Char.toUpper == "KEY".toList
  | _ => false

/-- Whether a match of the pattern is the UPDATE of `ON DUPLICATE KEY UPDATE`. -/
def updatesColumns (h : Hit) : Bool :=
  Unicode.sameLetters (h.group 0) "UPDATE".toList && followsKey h.start.before

/--
The lists of names from a place on, in at most `most` searches. Each search goes on behind the
clause found before it, or, where that was no clause, one character behind its start.
-/
def listsFrom : (most : Nat) → Cursor → List Text
  | 0, _ => []
  | most + 1, place =>
    match pattern.findFrom place with
    | none => []
    | some h =>
      if updatesColumns h then listsFrom most (h.start.skip 1)
      else h.group 1 :: listsFrom most h.stop

/-- The lists of names in a text. Each search but the last one moves on, so these are all. -/
def lists (t : Text) : List Text :=
  listsFrom (t.length + 1) (.start t)

/-- A list of names that is really the start of a subquery. -/
def subquery : Pattern :=
  textStart ++ keyword "SELECT".toList ++ wordEdge

def reference : Pattern :=
  maybeBlanks ++ .group Identifier.pattern ++ optional (blanks ++ allOf inLine)

def names (list : Text) : List Text :=
  if subquery.occursIn list then []
  else (list.splitOn ',').map (reference.replaceAll (·.group 0))

/-- The names in a list that can be tables: those with a letter. -/
def tables (list : Text) : List Text :=
  (names list).filter Text.hasLetter

def narration (list : Text) : List Text :=
  ("Match tables: ".toList ++ list)
    :: ((names list).filter fun name => !Text.hasLetter name).map
      ("Skipping suspicious table name: ".toList ++ ·)

end QueryDigest.TableClause
