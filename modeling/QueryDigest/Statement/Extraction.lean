import QueryDigest.Statement.DataDefinition
import QueryDigest.Statement.LoadTarget
import QueryDigest.Statement.TableClause
import QueryDigest.Text.Quoted

/-!
Which tables a statement names. A data definition names its object directly, unless it defines a
table by a query; a bulk load names its target; any other statement names tables in its clauses.
Literals are blanked out before clauses are looked for, so that no text inside one is taken for a
clause or a name.
-/

namespace QueryDigest

inductive Extraction where
  | aboutDatabase (verb : DefinitionVerb)
  /-- A definition by a query, with the query and what was found in it. -/
  | definedByQuery (verb : DefinitionVerb) (query : Text) (inner : Extraction)
  | definedObject (verb : DefinitionVerb) (name : Option Text)
  | bulkLoad (target : Option Text)
  /-- The lists of names in a statement's clauses, and the list of locked tables if it has one. -/
  | clauses (locked : Option Text) (lists : List Text)

namespace Extraction

open Pattern

/-! ### Data definitions -/

def existenceClause : Pattern :=
  keyword "IF".toList ++ blanks ++ optional (keyword "NOT".toList ++ blanks)
    ++ keyword "EXISTS".toList

def databaseBehind (verb : DefinitionVerb) : Pattern :=
  keyword verb.keyword ++ keyword " DATABASE".toList ++ wordEdge

/-- A definition by a query on one line. -/
def createSelect : Pattern :=
  keyword "CREATE".toList ++ .one inLine ++ asFew inLine ++ wordEdge
    ++ keyword "SELECT".toList ++ wordEdge

/-- A query up to the end of the text, which is the group. -/
def selectTail : Pattern :=
  wordEdge ++ .group (keyword "SELECT".toList ++ wordEdge ++ someOf anyChar)

def tableName : Pattern :=
  keyword "TABLE".toList ++ blanks ++ .group Identifier.pattern

/-- The query that a definition takes its table from. -/
def definingQuery? (t : Text) : Option Text :=
  if createSelect.occursIn t then (selectTail.find t).map (·.group 0) else none

/-! ### Statements with clauses -/

/-- Modifiers, which may stand between a verb and a name. -/
def modifier : Pattern :=
  keywords ["LOW_PRIORITY".toList, "IGNORE".toList, "STRAIGHT_JOIN".toList, "DELAYED".toList]
    ++ blanks

def lockOpening : Pattern :=
  textStart ++ maybeBlanks ++ keyword "LOCK TABLES".toList ++ blanks

def lockMode : Pattern :=
  blanks ++ (keyword "READ".toList ++ optional (blanks ++ keyword "LOCAL".toList)
    ||| keyword "WRITE".toList) ++ maybeBlanks

/-- The tables of a statement that locks tables, without the modes. -/
def locked? (t : Text) : Option Text :=
  (lockOpening.find t).map fun h => lockMode.removeAll h.stop.after

def escapedQuote : Pattern :=
  char '\\' ++ .one fun c => c == '"' || c == '\''

def literal (quote : Char) : Pattern :=
  char quote ++ allOf (· != quote) ++ char quote

/-- A text with a question mark in the place of each literal. -/
def blankLiterals (t : Text) : Text :=
  let t := escapedQuote.removeAll t
  let t := (literal '"').replaceAll (fun _ => ['?']) t
  (literal '\'').replaceAll (fun _ => ['?']) t

def insertOpening : Pattern :=
  textStart ++ maybeBlanks ++ keywords ["INSERT".toList, "REPLACE".toList]

def leadingInto : Pattern :=
  textStart ++ blanks ++ keyword "INTO".toList

/-- The verb of a statement that inserts rows, which is the group, and the white space after it. -/
def insertPrefix : Pattern :=
  textStart ++ maybeBlanks ++ .group (keywords ["INSERT".toList, "REPLACE".toList]) ++ blanks

/-- A statement that inserts rows with INTO behind its verb, whether or not it was written. -/
def spellInto (t : Text) : Text :=
  match insertOpening.find t with
  | some h =>
    if leadingInto.occursIn h.stop.after then t
    else insertPrefix.replaceFirst (fun p => p.group 0 ++ " INTO ".toList) t
  | none => t

def loadOpening : Pattern :=
  textStart ++ maybeBlanks ++ keyword "LOAD DATA".toList

/-- What a statement that locks tables says, as a clause; any other statement as it is. -/
def withLocks (locked : Option Text) (t : Text) : Text :=
  match locked with
  | some list => "FROM ".toList ++ list
  | none => t

def ofClauses (t : Text) : Extraction :=
  let plain := modifier.replaceAll (fun _ => [' ']) t
  let locked := locked? plain
  let scanned := spellInto (blankLiterals (withLocks locked plain))
  if loadOpening.occursIn scanned then .bulkLoad (LoadTarget.ofStatement? scanned)
  else .clauses locked (TableClause.lists scanned)

/--
How tables are found in a statement. The query that defines a table lies behind the verb of the
definition, so it is the shorter text.
-/
def ofStatement (t : Text) : Extraction :=
  match DefinitionVerb.ofStatement? t with
  | none => ofClauses t
  | some verb =>
    let plain := existenceClause.removeAll t
    if (databaseBehind verb).occursIn plain then .aboutDatabase verb
    else
      match definingQuery? plain with
      | some query =>
        if query.length < t.length then .definedByQuery verb query (ofStatement query)
        else .definedObject verb none
      | none => .definedObject verb ((tableName.find plain).map (·.group 0))
termination_by t.length

/-! ### Views -/

/-- The tables found, in order and with repeats. -/
def tables : Extraction → List Text
  | .aboutDatabase _ => []
  | .definedByQuery _ _ inner => inner.tables
  | .definedObject _ name => name.toList
  | .bulkLoad target => target.toList
  | .clauses _ lists => lists.flatMap TableClause.tables

def narration : Extraction → List Text
  | .aboutDatabase verb =>
    [special verb.keyword, "Query alters database, not a table".toList]
  | .definedByQuery verb query inner =>
    special verb.keyword :: ("CREATE TABLE ... SELECT: ".toList ++ query) :: inner.narration
  | .definedObject verb name =>
    [special verb.keyword, "Table match: ".toList ++ Quoted.option name]
  | .bulkLoad _ => []
  | .clauses none lists => lists.flatMap TableClause.narration
  | .clauses (some list) lists =>
    special "LOCK TABLES".toList :: ("Locked tables: ".toList ++ list)
      :: lists.flatMap TableClause.narration
where
  special (kind : Text) : Text := "Special table type: ".toList ++ kind

end Extraction
end QueryDigest
