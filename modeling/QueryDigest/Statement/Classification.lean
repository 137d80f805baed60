import QueryDigest.Statement.Comment
import QueryDigest.Statement.DataDefinition
import QueryDigest.Statement.Identifier
import QueryDigest.Statement.LoadTarget
import QueryDigest.Text.Quoted
import QueryDigest.Unicode.Uppercase

/-!
What a statement does, in a few words. Shapes are tried in a fixed order and the first one that
fits claims the whole statement: six shapes on the statement as it stands, then SHOW and data
definition statements on the statement without its comments. What no shape claims is described by
the verbs that occur in it.
-/

namespace QueryDigest

/-- The shapes of statements, each with what is kept of a statement of that shape. -/
inductive Classification where
  | procedureCall (procedure : Text)
  | databaseChoice
  | tableRelease
  | distributedTransaction (command : Text)
  /-- A bulk load, with its table where one is named. -/
  | bulkLoad (table : Text)
  | administration (command : Text)
  /-- A SHOW statement cut down to its words. -/
  | showing (phrase : Text)
  /-- A data definition, with the kind and the name of its object where they are found. -/
  | definition (verb : DefinitionVerb) (kind : Option ObjectKind) (object : Text)
  /-- Any other statement, with the verbs found in it in upper case. -/
  | verbWords (found : List Text)

namespace Classification

open Pattern
open LoadTarget (notBlank)

/-! ### Shapes of the statement as it stands -/

/-- A procedure call, with the procedure's name as the group. -/
def callOpening : Pattern :=
  textStart ++ maybeBlanks ++ keyword "CALL".toList ++ blanks
    ++ .group (.one notBlank ++ asMany notBlank) ++ char '('

def useOpening : Pattern :=
  textStart ++ maybeBlanks ++ keyword "USE".toList ++ blanks

def unlockOpening : Pattern :=
  textStart ++ maybeBlanks ++ keyword "UNLOCK TABLES".toList

def transactionOpening : Pattern :=
  textStart ++ maybeBlanks ++ keyword "XA".toList ++ blanks ++ .group (someOf notBlank)

def loadOpening : Pattern :=
  textStart ++ maybeBlanks ++ keyword "LOAD".toList

/-- How the log announces an administrator's command. -/
def administratorMark : Text :=
  "administrator command:".toList

def procedureCall? (t : Text) : Option Classification :=
  (callOpening.find t).map fun h => .procedureCall (h.group 0)

def databaseChoice? (t : Text) : Option Classification :=
  if useOpening.occursIn t then some .databaseChoice else none

def tableRelease? (t : Text) : Option Classification :=
  if unlockOpening.occursIn t then some .tableRelease else none

def distributedTransaction? (t : Text) : Option Classification :=
  (transactionOpening.find t).map fun h => .distributedTransaction (Unicode.upper (h.group 0))

/-- A bulk load. The name of its table loses its quotes. -/
def bulkLoad? (t : Text) : Option Classification :=
  if loadOpening.occursIn t then
    some (.bulkLoad (Identifier.unquoted ((LoadTarget.ofStatement? t).getD [])))
  else none

/-- An administrator's command. Every mark in it becomes the word `ADMIN`. -/
def administration? (t : Text) : Option Classification :=
  if administratorMark.isPrefixOf t then
    some (.administration
      (Unicode.upper ((exactly administratorMark).replaceAll (fun _ => "ADMIN".toList) t)))
  else none

/-! ### SHOW statements without comments -/

def showOpening : Pattern :=
  textStart ++ maybeBlanks ++ keyword "SHOW".toList ++ blanks

/-- Words that say nothing about what is shown. -/
def showFiller : Pattern :=
  blanks ++ anyOf (["SESSION", "FULL", "STORAGE", "ENGINE"].map fun w => exactly w.toList)
    ++ wordEdge

def showCount : Pattern :=
  blanks ++ exactly "COUNT".toList ++ someOf (· != ')') ++ char ')'

/-- The first clause and all that follows it. -/
def showClause : Pattern :=
  blanks ++ anyOf (["FOR", "FROM", "LIKE", "WHERE", "LIMIT", "IN"].map fun w => exactly w.toList)
    ++ wordEdge ++ someOf anyChar

def nextRun : Pattern :=
  blanks ++ someOf notBlank

/-- SHOW with one or two words, which are the group, and the rest of the text. -/
def showHead : Pattern :=
  textStart ++ .group (exactly "SHOW".toList ++ nextRun ++ optional nextRun) ++ allOf anyChar
    ++ textEnd

/-- The words of a SHOW statement: upper case, without filler, counts and clauses, cut short. -/
def showPhrase (t : Text) : Text :=
  let t := Unicode.upper t
  let t := showFiller.replaceAll (fun _ => [' ']) t
  let t := showCount.removeAll t
  let t := showClause.removeAll t
  let t := showHead.replaceFirst (·.group 0) t
  blanks.replaceAll (fun _ => [' ']) t

def showing? (t : Text) : Option Classification :=
  if showOpening.occursIn t then some (.showing (showPhrase t)) else none

/-! ### Data definitions without comments -/

def existenceClause : Pattern :=
  blanks ++ keyword "IF".toList ++ optional (blanks ++ keyword "NOT".toList) ++ blanks
    ++ keyword "EXISTS".toList

/-- The name behind a kind of object, which is the group. -/
def namedObject : Pattern :=
  keywords ["TABLE".toList, "DATABASE".toList] ++ blanks ++ .group Identifier.pattern

def definition? (t : Text) : Option Classification :=
  match DefinitionVerb.ofStatement? t with
  | some verb =>
    let t := existenceClause.replaceAll (fun _ => [' ']) t
    let object := match namedObject.find t with
      | some h => h.group 0
      | none => []
    some (.definition verb (ObjectKind.ofStatement? verb t) object)
  | none => none

/-! ### Verbs of any other statement -/

/-- The verbs that count only at the very start, in the first place, and those that always do. -/
def verb : Pattern :=
  wordEdge
    ++ anyOf [atStart "SHOW", atStart "FLUSH", atStart "COMMIT", atStart "ROLLBACK",
        atStart "BEGIN", anywhere "SELECT", anywhere "INSERT", anywhere "UPDATE",
        anywhere "DELETE", anywhere "REPLACE", atStart "SET", anywhere "UNION",
        atStart "START", atStart "LOCK"]
    ++ wordEdge
where
  atStart (w : String) : Pattern := textStart ++ keyword w.toList
  anywhere (w : String) : Pattern := keyword w.toList

/-- Leaves one of each run of equal neighbours. -/
def withoutRepeats : List Text → List Text
  | v :: w :: rest => if v = w then withoutRepeats (w :: rest) else v :: withoutRepeats (w :: rest)
  | vs => vs

/-- The verbs found in a statement, in upper case and without repeats. -/
def verbsIn (t : Text) : List Text :=
  withoutRepeats ((verb.hits t).map fun h => Unicode.upper h.text)

def selectWord : Text := "SELECT".toList

def unionWord : Text := "UNION".toList

/-- The verbs behind a first SELECT, which are more likely names than verbs. -/
def doubtful : List Text → List Text
  | first :: rest => if first = selectWord then rest else []
  | [] => []

/-- The verbs that a statement is described by: doubtful ones are left out, UNION is not. -/
def settled (found : List Text) : List Text :=
  match doubtful found with
  | [] => found
  | rest => if unionWord ∈ rest then [selectWord, unionWord] else [selectWord]

/-! ### The cascade -/

/-- The shape of a statement as it stands. -/
def ofRaw? (t : Text) : Option Classification :=
  [procedureCall?, databaseChoice?, tableRelease?, distributedTransaction?, bulkLoad?,
    administration?].findSome? (· t)

/-- The shape of a statement without its comments. -/
def ofBare? (t : Text) : Option Classification :=
  [showing?, definition?].findSome? (· t)

def ofStatement (t : Text) : Classification :=
  match ofRaw? t with
  | some shape => shape
  | none =>
    let bare := Comment.erase t
    match ofBare? bare with
    | some shape => shape
    | none => .verbWords (verbsIn bare)

/-! ### Views -/

/-- The words that describe a statement of this shape. -/
def words : Classification → Text
  | .procedureCall procedure => "CALL ".toList ++ procedure
  | .databaseChoice => "USE".toList
  | .tableRelease => "UNLOCK".toList
  | .distributedTransaction command => "XA_".toList ++ command
  | .bulkLoad table => "LOAD DATA ".toList ++ table
  | .administration command => command
  | .showing phrase => phrase
  | .definition verb none _ => verb.keyword
  | .definition verb (some kind) _ => Text.spaced [verb.keyword, kind.keyword]
  | .verbWords found => Text.spaced (settled found)

/-- The object that a statement names by itself; empty where there is none. -/
def object : Classification → Text
  | .definition _ _ object => object
  | _ => []

def rawLine (shape : String) (c : Classification) : Text :=
  "Special statement shape \"".toList ++ shape.toList ++ "\": ".toList ++ c.words

def bareLine (shape : String) (c : Classification) : Text :=
  "Statement shape \"".toList ++ shape.toList ++ "\": ".toList ++ c.words

def narration (c : Classification) : List Text :=
  match c with
  | .procedureCall _ => [rawLine "call" c]
  | .databaseChoice => [rawLine "use" c]
  | .tableRelease => [rawLine "unlock" c]
  | .distributedTransaction _ => [rawLine "xa" c]
  | .bulkLoad _ => [rawLine "load data" c]
  | .administration _ => [rawLine "admin" c]
  | .showing _ => [bareLine "show" c]
  | .definition verb kind object =>
    ["Data definition statement ".toList ++ verb.keyword ++ " for ".toList
      ++ Quoted.option (kind.map ObjectKind.keyword) ++ ": ".toList ++ object,
      bareLine "ddl" c]
  | .verbWords found =>
    match doubtful found with
    | [] => []
    | rest => ["False-positive verbs after SELECT: ".toList ++ Quoted.list rest]

end Classification
end QueryDigest
