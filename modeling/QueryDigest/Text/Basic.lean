/-!
Texts as sequences of characters, with the cutting and joining that statements and log lines need.
-/

namespace QueryDigest

abbrev Text := List Char

namespace Text

/-- Drops the characters of a class from the end. -/
def dropRightWhile (drops : Char → Bool) (t : Text) : Text :=
  (t.reverse.dropWhile drops).reverse

def without (c : Char) (t : Text) : Text :=
  t.filter (· != c)

def hasLetter (t : Text) : Bool :=
  t.any Char.isAlpha

/-- Texts in a row, with `separator` between neighbours. -/
def join (separator : Text) (texts : List Text) : Text :=
  separator.intercalate texts

def spaced (texts : List Text) : Text :=
  join [' '] texts

def line (t : Text) : Text :=
  t ++ ['\n']

end Text
end QueryDigest
