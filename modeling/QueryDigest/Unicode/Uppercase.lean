import QueryDigest.Text.Basic
import QueryDigest.Unicode.UppercaseTable

/-!
Upper case. A character has one upper-case form, which may be longer than the character; one
without case is its own form.
-/

namespace QueryDigest.Unicode

/-- The upper-case letter of a letter within the run. -/
def CaseRun.image? (r : CaseRun) (n : Nat) : Option Nat :=
  if r.first ≤ n ∧ n ≤ r.last ∧ (n - r.first) % r.step = 0 then some (n - r.first + r.image)
  else none

def upperChar (c : Char) : Text :=
  if c.toNat < 0x80 then [c.toUpper]
  else
    match longUppercases.lookup c.toNat with
    | some form => form.map Char.ofNat
    | none =>
      match caseRuns.findSome? (·.image? c.toNat) with
      | some n => [Char.ofNat n]
      | none => [c]

def upper (t : Text) : Text :=
  t.flatMap upperChar

end QueryDigest.Unicode
