import QueryDigest.Pattern.Forms
import QueryDigest.Pattern.Search

/-!
Comments in statements. Block and line comments are erased. A version comment, which opens with an
exclamation mark, holds text that some servers execute, and stays; in a SHOW statement the
qualifier inside the first version comment takes the place of every one.
-/

namespace QueryDigest.Comment

open Pattern

/-- A closed block comment with a body that does not make it a version comment. -/
def block : Pattern :=
  exactly "/*".toList ++ .one (· != '!') ++ asFew anyChar ++ exactly "*/".toList

/-- The characters that a line comment may hold: a quote would put its marker inside a literal. -/
def inLineComment (c : Char) : Bool :=
  c != '\'' && c != '"' && c != '\r' && c != '\n'

def line : Pattern :=
  (exactly "--".toList ||| exactly "#".toList) ++ allOf inLineComment ++ lineEnd

/--
From the opener of a comment to the first end of a comment that stands behind a number, which may
take in more than one comment.
-/
def version : Pattern :=
  exactly "/*".toList ++ allOf (!Char.isDigit ·) ++ digits ++ asFew anyChar
    ++ exactly "*/".toList

/-- A SHOW statement up to its first version comment, with the qualifier as the group. -/
def showQualifier : Pattern :=
  textStart ++ keyword "SHOW".toList ++ asFew anyChar ++ exactly "/*!".toList ++ digits
    ++ .group (asFew anyChar) ++ exactly "*/".toList

def isQuote (c : Char) : Bool :=
  c == '\'' || c == '"' || c == '\x60'

def closes : Text → Bool
  | [] => false
  | c :: rest => (c == '*' && rest.head? == some '/') || closes rest

/-- Where a character stands when a statement is read from its start. -/
inductive Surroundings where
  | plain
  | quoted (quote : Char)
  /-- Behind a backslash between quotes. -/
  | escaped (quote : Char)
  /-- The second character of a comment's opener. -/
  | opener
  | comment
  /-- The second character of a comment's end. -/
  | closer

/--
The number of characters in front of the first comment that is opened and never closed, if `count`
characters have been read. An opener between quotes or inside a closed comment is none, and an
unclosed version comment hides whatever comes after it.
-/
def unclosedFrom : Surroundings → (count : Nat) → Text → Option Nat
  | _, _, [] => none
  | .plain, n, c :: rest =>
    if isQuote c then unclosedFrom (.quoted c) (n + 1) rest
    else if c = '/' ∧ rest.head? = some '*' then
      let body := rest.tail
      if closes body then unclosedFrom .opener (n + 1) rest
      else if body.head? = some '!' then none
      else some n
    else unclosedFrom .plain (n + 1) rest
  | .quoted quote, n, c :: rest =>
    if c = '\\' then unclosedFrom (.escaped quote) (n + 1) rest
    else if c = quote then unclosedFrom .plain (n + 1) rest
    else unclosedFrom (.quoted quote) (n + 1) rest
  | .escaped quote, n, _ :: rest => unclosedFrom (.quoted quote) (n + 1) rest
  | .opener, n, _ :: rest => unclosedFrom .comment (n + 1) rest
  | .comment, n, c :: rest =>
    if c = '*' ∧ rest.head? = some '/' then unclosedFrom .closer (n + 1) rest
    else unclosedFrom .comment (n + 1) rest
  | .closer, n, _ :: rest => unclosedFrom .plain (n + 1) rest

def cutUnclosed (t : Text) : Text :=
  match unclosedFrom .plain 0 t with
  | some n => t.take n
  | none => t

/-- A statement without block comments, line comments and an unclosed comment at its end. -/
def eraseClosedAndCut (t : Text) : Text :=
  cutUnclosed (line.removeAll (block.removeAll t))

/--
A statement without its comments. Where it is a SHOW statement with a version comment, the first
qualifier is written in the place of every comment that is left and has a number in it.
-/
def erase (t : Text) : Text :=
  let rest := eraseClosedAndCut t
  match showQualifier.find rest with
  | some h => version.replaceAll (fun _ => h.group 0) rest
  | none => rest

end QueryDigest.Comment
