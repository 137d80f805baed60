import QueryDigest.Text.Basic

/-!
UTF-8 as lists of bytes. Writing gives each character its one encoding. Reading never fails:
wherever the bytes stop being the start of a well-formed sequence, the bytes of that start become
one replacement character and reading goes on with the byte that broke it.
-/

namespace QueryDigest.Utf8

/-- The replacement character stands for bytes that encode nothing. -/
def replacement : Char :=
  Char.ofNat 0xFFFD

def encodeChar (c : Char) : List UInt8 :=
  let n := c.toNat
  if n < 0x80 then
    [n.toUInt8]
  else if n < 0x800 then
    [(0xC0 + n / 0x40).toUInt8, (0x80 + n % 0x40).toUInt8]
  else if n < 0x10000 then
    [(0xE0 + n / 0x1000).toUInt8, (0x80 + n / 0x40 % 0x40).toUInt8, (0x80 + n % 0x40).toUInt8]
  else
    [(0xF0 + n / 0x40000).toUInt8, (0x80 + n / 0x1000 % 0x40).toUInt8,
      (0x80 + n / 0x40 % 0x40).toUInt8, (0x80 + n % 0x40).toUInt8]

def encode (t : Text) : List UInt8 :=
  t.flatMap encodeChar

/--
What the bytes of a character read so far still ask for: the value collected, the interval that
the next byte must lie in, and the number of bytes after that one.
-/
structure Pending where
  value : Nat
  low : UInt8
  high : UInt8
  more : Nat

/--
The meaning of a first byte: a character of its own, the start of a longer sequence, or nothing.
The interval of a second byte leaves out overlong forms, surrogates and numbers past U+10FFFF.
-/
inductive Lead where
  | single (c : Char)
  | sequence (pending : Pending)
  | stray

def Lead.ofByte (b : UInt8) : Lead :=
  if b < 0x80 then .single (Char.ofNat b.toNat)
  else if b < 0xC2 then .stray
  else if b < 0xE0 then .sequence ⟨b.toNat - 0xC0, 0x80, 0xBF, 0⟩
  else if b == 0xE0 then .sequence ⟨0, 0xA0, 0xBF, 1⟩
  else if b == 0xED then .sequence ⟨0xD, 0x80, 0x9F, 1⟩
  else if b < 0xF0 then .sequence ⟨b.toNat - 0xE0, 0x80, 0xBF, 1⟩
  else if b == 0xF0 then .sequence ⟨0, 0x90, 0xBF, 2⟩
  else if b < 0xF4 then .sequence ⟨b.toNat - 0xF0, 0x80, 0xBF, 2⟩
  else if b == 0xF4 then .sequence ⟨4, 0x80, 0x8F, 2⟩
  else .stray

/-- What a byte at the start of a character adds to the text, and what is then awaited. -/
def begin (b : UInt8) : Text × Option Pending :=
  match Lead.ofByte b with
  | .single c => ([c], none)
  | .sequence pending => ([], some pending)
  | .stray => ([replacement], none)

/-- What one byte adds to the text after the state `awaited`, and the state that follows. -/
def step (awaited : Option Pending) (b : UInt8) : Text × Option Pending :=
  match awaited with
  | none => begin b
  | some p =>
    if p.low ≤ b ∧ b ≤ p.high then
      let value := p.value * 0x40 + (b.toNat - 0x80)
      match p.more with
      | 0 => ([Char.ofNat value], none)
      | more + 1 => ([], some ⟨value, 0x80, 0xBF, more⟩)
    else
      let (text, next) := begin b
      (replacement :: text, next)

/-- Reads bytes in the state `awaited`, with the text read so far in reverse. -/
def decodeFrom (done : Text) (awaited : Option Pending) : List UInt8 → Text
  | [] =>
    match awaited with
    | none => done.reverse
    | some _ => (replacement :: done).reverse
  | b :: rest =>
    let (text, next) := step awaited b
    decodeFrom (text.reverse ++ done) next rest

/-- The text of any bytes, each maximal malformed part read as one replacement character. -/
def decode (bytes : List UInt8) : Text :=
  decodeFrom [] none bytes

end QueryDigest.Utf8
