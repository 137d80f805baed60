import QueryDigest.Json.Value
import QueryDigest.Text.Decimal

/-!
JSON texts: on one line without spaces, or spread over lines with an indentation of two spaces.
Strings escape quotes, backslashes and the control characters below the space, and nothing else,
so a line feed never stands inside a string.
-/

namespace QueryDigest.Json

def hexDigit (n : Nat) : Char :=
  if n < 10 then Char.ofNat (48 + n) else Char.ofNat (87 + n)

def escapeChar (c : Char) : Text :=
  if c = '"' ∨ c = '\\' then ['\\', c]
  else if c = '\x08' then ['\\', 'b']
  else if c = '\t' then ['\\', 't']
  else if c = '\n' then ['\\', 'n']
  else if c = '\x0c' then ['\\', 'f']
  else if c = '\r' then ['\\', 'r']
  else if c.toNat < 0x20 then
    ['\\', 'u', '0', '0', hexDigit (c.toNat / 16), hexDigit (c.toNat % 16)]
  else [c]

def quote (t : Text) : Text :=
  '"' :: t.flatMap escapeChar ++ ['"']

namespace Value

mutual

/-- A value on one line. -/
def compact : Value → Text
  | .string t => quote t
  | .number n => Decimal.render n
  | .array items => '[' :: Text.join [','] (compactItems items) ++ [']']
  | .object members => '\x7b' :: Text.join [','] (compactMembers members) ++ ['\x7d']

def compactItems : List Value → List Text
  | [] => []
  | v :: vs => v.compact :: compactItems vs

def compactMembers : List (Text × Value) → List Text
  | [] => []
  | (name, v) :: ms => (quote name ++ ':' :: v.compact) :: compactMembers ms

end

def indentation (depth : Nat) : Text :=
  List.replicate (2 * depth) ' '

/-- Parts between brackets, each on a line of its own one level deeper; brackets alone if none. -/
def spread (opener closer : Char) (depth : Nat) (parts : List Text) : Text :=
  if parts.isEmpty then [opener, closer]
  else
    opener :: '\n'
      :: Text.join [',', '\n'] (parts.map (indentation (depth + 1) ++ ·))
      ++ '\n' :: indentation depth ++ [closer]

mutual

/-- A value spread over lines, when the line it starts on is at a depth of nesting. -/
def pretty (depth : Nat) : Value → Text
  | .string t => quote t
  | .number n => Decimal.render n
  | .array items => spread '[' ']' depth (prettyItems (depth + 1) items)
  | .object members => spread '\x7b' '\x7d' depth (prettyMembers (depth + 1) members)

def prettyItems (depth : Nat) : List Value → List Text
  | [] => []
  | v :: vs => v.pretty depth :: prettyItems depth vs

def prettyMembers (depth : Nat) : List (Text × Value) → List Text
  | [] => []
  | (name, v) :: ms => (quote name ++ ':' :: ' ' :: v.pretty depth) :: prettyMembers depth ms

end

end Value
end QueryDigest.Json
