import QueryDigest.Statement.Classification
import QueryDigest.Statement.Extraction

/-!
Fingerprints: the words that classify a statement, and behind them the tables it names with their
numbers masked. Statements that differ only in literals or in numbered names share a fingerprint.
-/

namespace QueryDigest

/-- The tables that a statement names, in the order in which they first occur. -/
def tablesOf (statement : Text) : List Text :=
  (Extraction.ofStatement statement).tables.eraseDups

namespace Fingerprint

open Pattern

/-- A number, with the underscore in front of it as the group where there is one. -/
def number : Pattern :=
  .group (optional (char '_')) ++ digits

def maskNumbers (name : Text) : Text :=
  number.replaceAll (fun h => h.group 0 ++ ['?']) name

def maskedName (table : Text) : Text :=
  maskNumbers (Identifier.unquoted table)

/-- What the words of a SHOW statement are shortened to, in this order. -/
def synonyms : List (Text × Text) :=
  [("SCHEMA".toList, "DATABASE".toList), ("KEYS".toList, "INDEX".toList),
    ("INDEXES".toList, "INDEX".toList)]

/-- Writes each synonym in its common form, wherever its letters occur. -/
def unifySynonyms (t : Text) : Text :=
  synonyms.foldl (fun t (word, common) => (exactly word).replaceAll (fun _ => common) t) t

/-- Whether the words of a classification are a fingerprint without any tables. -/
def needsNoTables (words : Text) : Bool :=
  "SHOW".toList.isPrefixOf words || "LOAD DATA".toList.isPrefixOf words

/-- The tables of a fingerprint: the masked names and then the named object, none of them twice. -/
def tables (found : List Text) (object : Text) : List Text :=
  (found.map maskedName ++ if object.isEmpty then [] else [object]).eraseDups

def compose (c : Classification) (found : List Text) : Text :=
  if "SHOW".toList.isPrefixOf c.words then unifySynonyms c.words
  else if "LOAD DATA".toList.isPrefixOf c.words then c.words
  else Text.spaced (c.words :: tables found c.object)

end Fingerprint

def fingerprint (statement : Text) : Text :=
  Fingerprint.compose (.ofStatement statement) (tablesOf statement)

end QueryDigest
