import QueryDigest.Pattern.Basic
import QueryDigest.Unicode.Blank
import QueryDigest.Unicode.Folding
import QueryDigest.Unicode.Word

/-!
The forms that statement patterns are built from: fixed text, keywords in any case, runs of
characters, and places such as the edge of a word.
-/

namespace QueryDigest.Pattern

instance : Append Pattern := ⟨.seq⟩

/-- The first of two patterns that matches. -/
instance : OrOp Pattern := ⟨.alt⟩

def anyOf : List Pattern → Pattern
  | [] => .holds fun _ _ => false
  | [p] => p
  | p :: ps => p ||| anyOf ps

/-- A pattern or nothing, the pattern where it matches. -/
def optional (p : Pattern) : Pattern :=
  p ||| .empty

def char (c : Char) : Pattern :=
  .one (· == c)

def exactly (t : Text) : Pattern :=
  t.foldr (fun c p => char c ++ p) .empty

/-- A text of ASCII characters in any case. -/
def keyword (t : Text) : Pattern :=
  t.foldr (fun c p => .one (fun d => Unicode.foldLetter d == Unicode.foldLetter c) ++ p) .empty

def keywords (ts : List Text) : Pattern :=
  anyOf (ts.map keyword)

/-- All the characters of a class ahead, if there are any. -/
def allOf (ok : Char → Bool) : Pattern :=
  .chars .all ok

/-- All the characters of a class ahead, and at least one. -/
def someOf (ok : Char → Bool) : Pattern :=
  .one ok ++ .chars .all ok

/-- Any number of characters of a class, as many as the rest of the pattern allows. -/
def asMany (ok : Char → Bool) : Pattern :=
  .chars .longest ok

/-- Any number of characters of a class, as few as the rest of the pattern allows. -/
def asFew (ok : Char → Bool) : Pattern :=
  .chars .shortest ok

def blanks : Pattern :=
  someOf Unicode.isBlank

def maybeBlanks : Pattern :=
  allOf Unicode.isBlank

def word : Pattern :=
  someOf Unicode.isWord

def digits : Pattern :=
  someOf Char.isDigit

def anyChar : Char → Bool :=
  fun _ => true

def inLine : Char → Bool :=
  (· != '\n')

def textStart : Pattern :=
  .holds fun before _ => before.isEmpty

def textEnd : Pattern :=
  .holds fun _ after => after.isEmpty

/-- Whether a character there may be is a word character. -/
def isWordAt : Option Char → Bool
  | some c => Unicode.isWord c
  | none => false

/-- The edge of a word: a word character on just one side. -/
def wordEdge : Pattern :=
  .holds fun before after => isWordAt before.head? != isWordAt after.head?

/--
The end of a line: the end of the text, or in front of a line ending, where a carriage return
together with a line feed is one ending.
-/
def lineEnd : Pattern :=
  .holds fun before after =>
    match after with
    | [] => true
    | '\r' :: _ => true
    | '\n' :: _ => before.head? != some '\r'
    | _ => false

end QueryDigest.Pattern
