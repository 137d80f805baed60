import QueryDigest.Text.Decimal

/-!
Numbers in JSON texts. A reader of natural numbers still has to read all other numbers: to see
where they end, whether they are well-formed, and whether they are too large for a binary number of
double precision, which is an error of its own.
-/

namespace QueryDigest.Json

/-- Why a text is not read: it breaks the grammar, says something else, or ends too early. -/
inductive Fault where
  | malformed
  | mismatch
  | truncated
  deriving DecidableEq, Repr

namespace Number

/-- The largest exponent that is kept as a number; a larger one just counts as too large. -/
def maxExponent : Nat := 2147483647

def spanDigits (t : Text) : List Nat × Text :=
  ((t.takeWhile Char.isDigit).filterMap Decimal.value?, t.dropWhile Char.isDigit)

/--
Appends digits to a number as long as it stays within 64 bits. The result is the number, how many
digits it took, and how many were left over.
-/
def absorb (n taken : Nat) : List Nat → Nat × Nat × Nat
  | [] => (n, taken, 0)
  | d :: ds =>
    if n * 10 + d ≤ Decimal.maxWord then absorb (n * 10 + d) (taken + 1) ds
    else (n, taken, ds.length + 1)

/-- The nearest number with 53 significant bits; of two equally near ones the even one. -/
def nearestDouble (n : Nat) : Nat :=
  let unit := 1 <<< (n.log2 + 1 - 53)
  let low := n / unit
  let left := n % unit
  let up := 2 * left > unit || (2 * left == unit && low % 2 == 1)
  (if up then low + 1 else low) * unit

/-- The least number that double precision rounds to infinity. -/
def beyondDouble : Nat := 1 <<< 1024 - 1 <<< 970

/-- Whether `n * 10 ^ exponent`, computed in double precision, is infinite. -/
def isInfinite (n : Nat) (exponent : Int) : Bool :=
  n != 0 && (308 < exponent || (0 ≤ exponent
    && beyondDouble ≤ nearestDouble n * nearestDouble (Nat.pow 10 exponent.toNat)))

/-- Accepts a number that is not a natural one, unless it is too large. -/
def finite (n : Nat) (exponent : Int) (rest : Text) : Except Fault (Option Nat × Text) :=
  if isInfinite n exponent then .error .malformed else .ok (none, rest)

def exponentPart (n : Nat) (exponent : Int) (t : Text) : Except Fault (Option Nat × Text) :=
  let (negative, t) := match t with
    | '+' :: rest => (false, rest)
    | '-' :: rest => (true, rest)
    | t => (false, t)
  match spanDigits t with
  | ([], []) => .error .truncated
  | ([], _) => .error .malformed
  | (ds, rest) =>
    let written : Nat := ds.foldl (fun e d => e * 10 + d) 0
    if maxExponent < written then
      if n != 0 && !negative then .error .malformed else .ok (none, rest)
    else finite n (exponent + if negative then -(written : Int) else written) rest

/-- Reads on behind a decimal point, the number before it being `n * 10 ^ exponent`. -/
def fraction (n : Nat) (exponent : Int) (t : Text) : Except Fault (Option Nat × Text) :=
  match spanDigits t with
  | ([], []) => .error .truncated
  | ([], _) => .error .malformed
  | (ds, rest) =>
    let (n, taken, _) := absorb n 0 ds
    match rest with
    | 'e' :: rest | 'E' :: rest => exponentPart n (exponent - taken) rest
    | rest => finite n (exponent - taken) rest

/-- Reads on behind the digits of an integer, of which `left` did not fit into `n`. -/
def afterInteger (n left : Nat) : Text → Except Fault (Option Nat × Text)
  | '.' :: rest => fraction n left rest
  | 'e' :: rest | 'E' :: rest => exponentPart n left rest
  | rest => if left = 0 then .ok (some n, rest) else finite n left rest

/--
Reads a number without a sign. The result is its value if it is a natural number of 64 bits, and
nothing if it is any other number. A leading zero stands alone.
-/
def unsigned (t : Text) : Except Fault (Option Nat × Text) :=
  match spanDigits t with
  | ([], []) => .error .truncated
  | ([], _) => .error .malformed
  | (0 :: _ :: _, _) => .error .malformed
  | (ds, rest) =>
    let (n, _, left) := absorb 0 0 ds
    afterInteger n left rest

def read : Text → Except Fault (Option Nat × Text)
  | '-' :: rest => (unsigned rest).map fun (_, rest) => (none, rest)
  | t => unsigned t

def skipExponent (t : Text) : Except Fault Text :=
  let t := match t with
    | '+' :: rest | '-' :: rest => rest
    | t => t
  match spanDigits t with
  | ([], _) => .error .malformed
  | (_, rest) => .ok rest

def skipTail : Text → Except Fault Text
  | '.' :: rest =>
    match spanDigits rest with
    | ([], _) => .error .malformed
    | (_, 'e' :: rest) | (_, 'E' :: rest) => skipExponent rest
    | (_, rest) => .ok rest
  | 'e' :: rest | 'E' :: rest => skipExponent rest
  | rest => .ok rest

/-- Passes over a number, whatever its size. A number cut short is malformed here. -/
def skip (t : Text) : Except Fault Text :=
  let t := match t with
    | '-' :: rest => rest
    | t => t
  match spanDigits t with
  | ([], _) | (0 :: _ :: _, _) => .error .malformed
  | (_, rest) => skipTail rest

end Number
end QueryDigest.Json
