import QueryDigest.Text.Basic

/-!
What a report shows and how it is written.
-/

namespace QueryDigest

inductive Format where
  /-- One result on each line. -/
  | text
  /-- One JSON array, spread over lines. -/
  | json
  /-- One JSON object on each line. -/
  | ndjson
  deriving DecidableEq, Repr

inductive Mode where
  /-- The fingerprint of each statement. -/
  | fingerprint
  /-- The tables of each statement. -/
  | tables
  /-- The count of each fingerprint. -/
  | summary
  deriving DecidableEq, Repr

namespace Format

def name : Format → Text
  | text => "text".toList
  | json => "json".toList
  | ndjson => "ndjson".toList

def all : List Format :=
  [text, json, ndjson]

/-- The format of a name, in this spelling alone. -/
def ofName? (t : Text) : Option Format :=
  all.find? (·.name == t)

end Format

namespace Mode

def name : Mode → Text
  | fingerprint => "fingerprint".toList
  | tables => "tables".toList
  | summary => "summary".toList

def all : List Mode :=
  [fingerprint, tables, summary]

def ofName? (t : Text) : Option Mode :=
  all.find? (·.name == t)

end Mode
end QueryDigest
