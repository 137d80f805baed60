import QueryDigest.Text.Basic

/-!
Keyword comparison without regard to case. Keywords are ASCII, and simple case folding takes just
two characters from outside ASCII to an ASCII letter: the long s and the Kelvin sign.
-/

namespace QueryDigest.Unicode

/-- The upper-case ASCII letter that a character folds to; any other character is its own. -/
def foldLetter (c : Char) : Char :=
  if c = Char.ofNat 0x17F then 'S'
  else if c = Char.ofNat 0x212A then 'K'
  else c.toUpper

/-- Texts that differ at most in the case of ASCII letters. -/
def sameLetters (s t : Text) : Bool :=
  s.map foldLetter == t.map foldLetter

end QueryDigest.Unicode
