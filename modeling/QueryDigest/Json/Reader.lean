import QueryDigest.Json.Number
import QueryDigest.Text.Utf8

/-!
Reading values of known shape from JSON texts. What is asked for is a row of named fields, each a
text, a list of texts or a natural number. They are read from an object, in any order and among
other members, or from an array, in their order. The first fault from the left is reported.
-/

namespace QueryDigest.Json

/-! ### Blanks and strings -/

def isBlank (c : Char) : Bool :=
  c == ' ' || c == '\n' || c == '\t' || c == '\r'

def skipBlanks (t : Text) : Text :=
  t.dropWhile isBlank

def hexValue? (c : Char) : Option Nat :=
  if '0' ≤ c ∧ c ≤ '9' then some (c.toNat - 48)
  else if 'a' ≤ c ∧ c ≤ 'f' then some (c.toNat - 87)
  else if 'A' ≤ c ∧ c ≤ 'F' then some (c.toNat - 55)
  else none

def hexQuad? (a b c d : Char) : Option Nat := do
  return (((← hexValue? a) * 16 + (← hexValue? b)) * 16 + (← hexValue? c)) * 16 + (← hexValue? d)

/-- The fault of an escape with fewer than four characters left for its digits. -/
def shortQuad (left : Text) : Fault :=
  if (Utf8.encode left).length < 4 then .truncated else .malformed

/-- The character that a backslash and a letter stand for. -/
def escaped? (c : Char) : Option Char :=
  if c = '"' ∨ c = '\\' ∨ c = '/' then some c
  else if c = 'b' then some '\x08'
  else if c = 'f' then some '\x0c'
  else if c = 'n' then some '\n'
  else if c = 'r' then some '\r'
  else if c = 't' then some '\t'
  else none

/-- The first half of a pair of escapes for one character. -/
def isLeading (n : Nat) : Bool :=
  0xD800 ≤ n && n ≤ 0xDBFF

def isTrailing (n : Nat) : Bool :=
  0xDC00 ≤ n && n ≤ 0xDFFF

def paired (leading trailing : Nat) : Char :=
  Char.ofNat (0x10000 + (leading - 0xD800) * 0x400 + (trailing - 0xDC00))

/--
Reads a string behind its opening quote, with the characters so far in reverse. Unless it is
`strict`, halves of pairs may stand alone.
-/
def stringFrom (strict : Bool) (done : Text) : Text → Except Fault (Text × Text)
  | [] => .error .truncated
  | '"' :: rest => .ok (done.reverse, rest)
  | '\\' :: 'u' :: a :: b :: c :: d :: rest =>
    match hexQuad? a b c d with
    | none => .error .malformed
    | some n =>
      if !isLeading n && !isTrailing n then stringFrom strict (Char.ofNat n :: done) rest
      else if !strict then stringFrom strict (Utf8.replacement :: done) rest
      else if isTrailing n then .error .malformed
      else
        match rest with
        | [] | ['\\'] => .error .truncated
        | '\\' :: 'u' :: e :: f :: g :: h :: rest =>
          match hexQuad? e f g h with
          | some m =>
            if isTrailing m then stringFrom strict (paired n m :: done) rest
            else .error .malformed
          | none => .error .malformed
        | '\\' :: 'u' :: left => .error (shortQuad left)
        | _ => .error .malformed
  | '\\' :: 'u' :: left => .error (shortQuad left)
  | ['\\'] => .error .truncated
  | '\\' :: c :: rest =>
    match escaped? c with
    | some e => stringFrom strict (e :: done) rest
    | none => .error .malformed
  | c :: rest =>
    if c.toNat < 0x20 then .error .malformed else stringFrom strict (c :: done) rest

def stringBody (t : Text) : Except Fault (Text × Text) :=
  stringFrom true [] t

def skipString (t : Text) : Except Fault Text :=
  (stringFrom false [] t).map (·.2)

def expect : (expected : Text) → Text → Except Fault Text
  | [], t => .ok t
  | _ :: _, [] => .error .truncated
  | e :: expected, c :: rest => if c = e then expect expected rest else .error .malformed

/-! ### Values of another shape -/

/-- The fault of a value that starts like `t` and is not of the shape asked for. -/
def mismatchAt (t : Text) : Fault :=
  match value with
  | .ok _ => .mismatch
  | .error fault => fault
where
  /-- The rest behind the scalar that the text starts with; brackets are not looked into. -/
  value : Except Fault Text :=
    match t with
    | 'n' :: rest => expect "ull".toList rest
    | 't' :: rest => expect "rue".toList rest
    | 'f' :: rest => expect "alse".toList rest
    | '"' :: rest => (stringBody rest).map (·.2)
    | '[' :: rest | '\x7b' :: rest => .ok rest
    | [] => .error .malformed
    | c :: _ =>
      if c = '-' ∨ c.isDigit then (Number.read t).map (·.2) else .error .malformed

/-! ### Arrays and objects -/

/--
Goes to the next item of an array, behind its opening bracket or behind an item; `false` says that
the closing bracket comes next.
-/
def nextItem (first : Bool) (t : Text) : Except Fault (Bool × Text) :=
  match skipBlanks t with
  | [] => .error .truncated
  | ']' :: rest => .ok (false, ']' :: rest)
  | ',' :: rest =>
    if first then .ok (true, ',' :: rest)
    else
      match skipBlanks rest with
      | [] => .error .truncated
      | ']' :: _ => .error .malformed
      | t => .ok (true, t)
  | t => if first then .ok (true, t) else .error .malformed

def closeArray (t : Text) : Except Fault Text :=
  match skipBlanks t with
  | [] => .error .truncated
  | ']' :: rest => .ok rest
  | _ => .error .malformed

/--
Goes behind the opening quote of the next member's name, behind an object's opening brace or behind
a member; nothing says that the object ends, and then the rest is what follows its closing brace.
-/
def nextMember (first : Bool) (t : Text) : Except Fault (Text ⊕ Text) :=
  match skipBlanks t with
  | [] => .error .truncated
  | '\x7d' :: rest => .ok (.inr rest)
  | ',' :: rest =>
    if first then .error .malformed
    else
      match skipBlanks rest with
      | [] => .error .truncated
      | '"' :: rest => .ok (.inl rest)
      | _ => .error .malformed
  | '"' :: rest => if first then .ok (.inl rest) else .error .malformed
  | _ => .error .malformed

def colon (t : Text) : Except Fault Text :=
  match skipBlanks t with
  | [] => .error .truncated
  | ':' :: rest => .ok rest
  | _ => .error .malformed

/-! ### Values that are passed over -/

mutual

/-- Passes over a value, with at most `fuel` values and members in it. -/
def skipValue : (fuel : Nat) → Text → Except Fault Text
  | 0, _ => .error .malformed
  | fuel + 1, t =>
    match skipBlanks t with
    | [] => .error .truncated
    | 'n' :: rest => expect "ull".toList rest
    | 't' :: rest => expect "rue".toList rest
    | 'f' :: rest => expect "alse".toList rest
    | '"' :: rest => skipString rest
    | '[' :: rest =>
      match skipBlanks rest with
      | ']' :: rest => .ok rest
      | rest => skipItems fuel rest
    | '\x7b' :: rest =>
      match skipBlanks rest with
      | '\x7d' :: rest => .ok rest
      | rest => skipMembers fuel rest
    | c :: rest => if c = '-' ∨ c.isDigit then Number.skip (c :: rest) else .error .malformed

def skipItems : (fuel : Nat) → Text → Except Fault Text
  | 0, _ => .error .malformed
  | fuel + 1, t => do
    let t ← skipValue fuel t
    match skipBlanks t with
    | [] => .error .truncated
    | ',' :: rest => skipItems fuel rest
    | ']' :: rest => .ok rest
    | _ => .error .malformed

def skipMembers : (fuel : Nat) → Text → Except Fault Text
  | 0, _ => .error .malformed
  | fuel + 1, t =>
    match skipBlanks t with
    | [] => .error .truncated
    | '"' :: rest => do
      let t ← colon (← skipString rest)
      let t ← skipValue fuel t
      match skipBlanks t with
      | [] => .error .truncated
      | ',' :: rest => skipMembers fuel rest
      | '\x7d' :: rest => .ok rest
      | _ => .error .malformed
    | _ => .error .malformed

end

/-- Passes over a value. Each step into it consumes a character, so the fuel suffices. -/
def skip (t : Text) : Except Fault Text :=
  skipValue (2 * t.length + 2) t

/-! ### Fields -/

inductive Kind where
  | text
  | texts
  | count

inductive Field where
  | text (t : Text)
  | texts (ts : List Text)
  | count (n : Nat)

def readText (t : Text) : Except Fault (Text × Text) :=
  match skipBlanks t with
  | [] => .error .truncated
  | '"' :: rest => stringBody rest
  | t => .error (mismatchAt t)

/-- Reads the strings of an array up to its closing bracket, at most `fuel` of them. -/
def readTextItems : (fuel : Nat) → (first : Bool) → Text → Except Fault (List Text × Text)
  | 0, _, _ => .error .malformed
  | fuel + 1, first, t => do
    match ← nextItem first t with
    | (false, t) => return ([], ← closeArray t)
    | (true, t) =>
      let (item, t) ← readText t
      let (items, t) ← readTextItems fuel false t
      return (item :: items, t)

def readTexts (t : Text) : Except Fault (List Text × Text) :=
  match skipBlanks t with
  | [] => .error .truncated
  | '[' :: rest => readTextItems (rest.length + 1) true rest
  | t => .error (mismatchAt t)

def readCount (t : Text) : Except Fault (Nat × Text) :=
  match skipBlanks t with
  | [] => .error .truncated
  | c :: rest =>
    if c = '-' ∨ c.isDigit then do
      match ← Number.read (c :: rest) with
      | (some n, t) => return (n, t)
      | (none, _) => .error .mismatch
    else .error (mismatchAt (c :: rest))

def readField : Kind → Text → Except Fault (Field × Text)
  | .text, t => (readText t).map fun (x, t) => (.text x, t)
  | .texts, t => (readTexts t).map fun (xs, t) => (.texts xs, t)
  | .count, t => (readCount t).map fun (n, t) => (.count n, t)

/-! ### Rows of named fields -/

/-- The names and shapes of fields, in order. -/
abbrev Schema := List (Text × Kind)

/-- Reads the items of an array as the fields of a schema. -/
def readInOrder (first : Bool) : Schema → Text → Except Fault (List Field × Text)
  | [], t => return ([], ← closeArray t)
  | (_, kind) :: schema, t => do
    match ← nextItem first t with
    | (false, _) => .error .mismatch
    | (true, t) =>
      let (field, t) ← readField kind t
      let (fields, t) ← readInOrder false schema t
      return (field :: fields, t)

/-- The fields of a schema among those found, all of which must be there. -/
def collect (schema : Schema) (found : List (Text × Field)) : Except Fault (List Field) :=
  schema.mapM fun (name, _) =>
    match found.lookup name with
    | some field => .ok field
    | none => .error .mismatch

/--
Reads the members of an object, at most `fuel` of them, as the fields of a schema. A field may
stand there once; other members are passed over.
-/
def readByName (schema : Schema) :
    (fuel : Nat) → (first : Bool) → (found : List (Text × Field)) → Text →
      Except Fault (List Field × Text)
  | 0, _, _, _ => .error .malformed
  | fuel + 1, first, found, t => do
    match ← nextMember first t with
    | .inr t => return (← collect schema found, t)
    | .inl t =>
      let (name, t) ← stringBody t
      match schema.lookup name with
      | none => readByName schema fuel false found (← skip (← colon t))
      | some kind =>
        if (found.lookup name).isSome then .error .mismatch
        else
          let (field, t) ← readField kind (← colon t)
          readByName schema fuel false ((name, field) :: found) t

def readRow (schema : Schema) (t : Text) : Except Fault (List Field × Text) :=
  match skipBlanks t with
  | [] => .error .truncated
  | '[' :: rest => readInOrder true schema rest
  | '\x7b' :: rest => readByName schema (rest.length + 1) true [] rest
  | t => .error (mismatchAt t)

/-- Reads a whole text as the fields of a schema; only white space may follow them. -/
def parseRow (schema : Schema) (t : Text) : Except Fault (List Field) := do
  let (fields, rest) ← readRow schema t
  if (skipBlanks rest).isEmpty then return fields else .error .malformed

end QueryDigest.Json
