import QueryDigest.Statement.Fingerprint

/-!
Records: statements with their fingerprints and tables.
-/

namespace QueryDigest

structure Record where
  query : Text
  fingerprint : Text
  tables : List Text
  deriving DecidableEq, Repr

/-- The record of a statement. Its tables are found once and serve the fingerprint too. -/
def Record.ofStatement (statement : Text) : Record :=
  let tables := tablesOf statement
  ⟨statement, Fingerprint.compose (.ofStatement statement) tables, tables⟩

theorem Record.fingerprint_ofStatement (statement : Text) :
    (Record.ofStatement statement).fingerprint = QueryDigest.fingerprint statement := rfl

end QueryDigest
