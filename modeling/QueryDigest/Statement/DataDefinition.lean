import QueryDigest.Pattern.Forms
import QueryDigest.Pattern.Search

/-!
Data definition statements: the verb that such a statement starts with, and the kind of object
that it defines.
-/

namespace QueryDigest

/-- The verbs that name the object they act on directly, and not in a clause. -/
inductive DefinitionVerb where
  | create
  | alter
  | truncate
  | drop
  | rename
  deriving DecidableEq, Repr

namespace DefinitionVerb

def all : List DefinitionVerb :=
  [create, alter, truncate, drop, rename]

def keyword : DefinitionVerb → Text
  | create => "CREATE".toList
  | alter => "ALTER".toList
  | truncate => "TRUNCATE".toList
  | drop => "DROP".toList
  | rename => "RENAME".toList

open Pattern in
/-- The start of a data definition statement, with its verb as the group. -/
def opening : Pattern :=
  textStart ++ maybeBlanks ++ .group (keywords (all.map keyword)) ++ wordEdge

/-- The verb that a statement starts with, behind white space and in any case. -/
def ofStatement? (t : Text) : Option DefinitionVerb :=
  match opening.find t with
  | some h => all.find? fun verb => Unicode.sameLetters verb.keyword (h.group 0)
  | none => none

end DefinitionVerb

/-- The kinds of objects whose definition is told apart. -/
inductive ObjectKind where
  | database
  | table
  deriving DecidableEq, Repr

namespace ObjectKind

def keyword : ObjectKind → Text
  | database => "DATABASE".toList
  | table => "TABLE".toList

/-- The kinds in the order in which they are tried. -/
def all : List ObjectKind :=
  [database, table]

open Pattern in
/-- The verb, and on its line the last word ending in the name of a kind, which is the group. -/
def behind (verb : DefinitionVerb) : Pattern :=
  Pattern.keyword verb.keyword ++ .one inLine ++ asMany inLine
    ++ .group (keywords (all.map keyword)) ++ wordEdge

def ofStatement? (verb : DefinitionVerb) (t : Text) : Option ObjectKind :=
  match (behind verb).find t with
  | some h => all.find? fun kind => Unicode.sameLetters kind.keyword (h.group 0)
  | none => none

end ObjectKind
end QueryDigest
