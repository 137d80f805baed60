import QueryDigest.Text.Basic
import QueryDigest.Unicode.Printable

/-!
Quoted text for the log: a text between double quotes, with an escape for whatever would not be
seen as it is.
-/

namespace QueryDigest.Quoted

/-- Hexadecimal digits of a code point, as few as it needs. -/
def hexadecimal (n : Nat) : Text :=
  Nat.toDigits 16 n

def encodeChar (c : Char) : Text :=
  if c = '\n' then ['\\', 'n']
  else if c = '\t' then ['\\', 't']
  else if c = '\r' then ['\\', 'r']
  else if c = '\x00' then ['\\', '0']
  else if c = '"' ∨ c = '\\' then ['\\', c]
  else if Unicode.isShown c then [c]
  else "\\u".toList ++ '\x7b' :: hexadecimal c.toNat ++ ['\x7d']

def text (t : Text) : Text :=
  '"' :: t.flatMap encodeChar ++ ['"']

/-- An optional text: `Some("x")` or `None`. -/
def option : Option Text → Text
  | some t => "Some(".toList ++ text t ++ [')']
  | none => "None".toList

def list (ts : List Text) : Text :=
  '[' :: Text.join ", ".toList (ts.map text) ++ [']']

end QueryDigest.Quoted
