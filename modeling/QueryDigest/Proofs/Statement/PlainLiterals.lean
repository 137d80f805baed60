import QueryDigest.Proofs.Statement.Openings
import QueryDigest.Proofs.Statement.WordVerbs

/-!
Literals that are not seen. Where a literal opens no comment and has no verb among its words, the
verbs of the statement are those around it, and the tables do not depend on it anyway, so that all
such literals leave one fingerprint.
-/

namespace QueryDigest

open Pattern
open Text (wordRuns)

/-- No comment is opened in the body of a literal, and no word in it is a verb. -/
structure Verbless (b : Text) : Prop where
  unmarked : Comment.Unmarked b
  words : ∀ run ∈ wordRuns 0 b, ¬ Classification.Reads Classification.innerVerbs run.2

namespace Verbless

variable {b : Text} (hb : Verbless b)

include hb

/-- A verb that counts at the start only does not count in a literal, which has a quote in front. -/
theorem verbsBehind_eq_nil : Classification.verbsBehind ['\''] (b ++ ['\'']) = [] := by
  rw [Classification.verbsBehind_eq_words 1 ['\''] (b ++ ['\'']) rfl fun _ => by decide,
    Text.wordRuns_concat (by decide), ← Nat.zero_add 1, Text.wordRuns_add, List.map_eq_nil_iff,
    List.filter_eq_nil_iff]
  intro run hrun hcounts
  obtain ⟨run, hmem, rfl⟩ := List.mem_map.mp hrun
  obtain hinner | ⟨hzero, _⟩ := of_decide_eq_true hcounts
  · exact hb.words run hmem hinner
  · exact Nat.succ_ne_zero run.1 hzero

/-- The verbs of a statement are those in front of the literal and those behind it. -/
theorem verbsIn_around (p s : Text) :
    Classification.verbsIn (p ++ '\'' :: (b ++ '\'' :: s)) =
      Classification.withoutRepeats (Classification.verbsBehind [] (p ++ ['\'']) ++
        Classification.verbsBehind ['\''] s) := by
  have havoid : Classification.verb.avoids ['\''] = true := by decide
  have hbody := Classification.verbsBehind_append havoid ['\''] b s
  rw [hb.verbsBehind_eq_nil, List.nil_append] at hbody
  rw [Classification.verbsIn_eq, Classification.verbsBehind_append havoid, hbody]

theorem erase_eq_self {p s : Text} (hp : Comment.Unmarked p) (hs : Comment.Unmarked s) :
    Comment.erase (p ++ '\'' :: (b ++ '\'' :: s)) = p ++ '\'' :: (b ++ '\'' :: s) :=
  Comment.erase_unmarked (hp.quote (hb.unmarked.quote hs))

end Verbless

/-- Statements that are no data definitions and differ in one literal share a fingerprint if neither
literal opens a comment or has a verb among its words. -/
theorem fingerprint_eq_of_verbless {p s b₁ b₂ : Text}
    (hp : ∀ c ∈ p, c ≠ '\'' ∧ c ≠ '"' ∧ c ≠ '\\') (hp' : Comment.Unmarked p)
    (hs : Comment.Unmarked s) (hb₁ : ∀ c ∈ b₁, c ≠ '\'' ∧ c ≠ '"' ∧ c ≠ '\\')
    (hb₂ : ∀ c ∈ b₂, c ≠ '\'' ∧ c ≠ '"' ∧ c ≠ '\\') (hverbs₁ : Verbless b₁)
    (hverbs₂ : Verbless b₂) (hddl : DefinitionVerb.ofStatement? (p ++ ['\'']) = none)
    (h₁ : (Classification.ofStatement (p ++ '\'' :: b₁ ++ '\'' :: s)).echoes = false)
    (h₂ : (Classification.ofStatement (p ++ '\'' :: b₂ ++ '\'' :: s)).echoes = false) :
    fingerprint (p ++ '\'' :: b₁ ++ '\'' :: s) = fingerprint (p ++ '\'' :: b₂ ++ '\'' :: s) := by
  have htables := Extraction.tablesOf_single hp hddl hb₁ hb₂ s
  have hshape : ∀ b : Text, p ++ '\'' :: b ++ '\'' :: s = p ++ '\'' :: (b ++ '\'' :: s) := by
    simp
  rw [hshape] at h₁ h₂
  rw [hshape, hshape] at htables ⊢
  cases hsession : Classification.opensSession (p ++ ['\'']) with
  | true =>
      rw [Fingerprint.fingerprint_of_session h₁ hsession,
        Fingerprint.fingerprint_of_session h₂ hsession, htables]
  | false =>
      rw [Fingerprint.fingerprint_of_verbs h₁ (hverbs₁.erase_eq_self hp' hs) hddl hsession,
        Fingerprint.fingerprint_of_verbs h₂ (hverbs₂.erase_eq_self hp' hs) hddl hsession,
        hverbs₁.verbsIn_around p s, hverbs₂.verbsIn_around p s, htables]

-- A verb that is a part of a word is not among the words of a literal.
example : fingerprint "select 'reunion' from t".toList = "SELECT t".toList := by
  decide +kernel

end QueryDigest
