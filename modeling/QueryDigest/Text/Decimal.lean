import QueryDigest.Text.Basic

/-!
Natural numbers in decimal: the digits without leading zeros, and the reading of a digit sequence
of any length.
-/

namespace QueryDigest.Decimal

def digit (n : Nat) : Char :=
  Char.ofNat (48 + n % 10)

/-- The decimal digits of a number, the most significant one first. -/
def render (n : Nat) : Text :=
  if n < 10 then [digit n] else render (n / 10) ++ [digit n]
termination_by n
decreasing_by omega

def value? (c : Char) : Option Nat :=
  if '0' ≤ c ∧ c ≤ '9' then some (c.toNat - 48) else none

/-- Reads digits onto the number `high` that stands before them. -/
def readOnto (high : Nat) : Text → Option Nat
  | [] => some high
  | c :: rest =>
    match value? c with
    | some d => readOnto (high * 10 + d) rest
    | none => none

/-- The number that a non-empty sequence of digits spells. Leading zeros are allowed. -/
def read? : Text → Option Nat
  | [] => none
  | digits => readOnto 0 digits

def maxWord : Nat := 18446744073709551615

def readWord? (t : Text) : Option Nat :=
  match read? t with
  | some n => if n ≤ maxWord then some n else none
  | none => none

end QueryDigest.Decimal
