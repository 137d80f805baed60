import QueryDigest.Pattern.Forms

/-!
Names of tables and other objects: a word or any text between back-quotes, and in front of it
perhaps the name of its schema.
-/

namespace QueryDigest.Identifier

open Pattern

def backquote : Char := '\x60'

def quoted : Pattern :=
  char backquote ++ someOf (· != backquote) ++ char backquote

def simple : Pattern :=
  quoted ||| word

/-- A name, with its schema and a dot in front where there is one. -/
def pattern : Pattern :=
  simple ++ optional (char '.' ++ simple)

def unquoted (name : Text) : Text :=
  Text.without backquote name

end QueryDigest.Identifier
