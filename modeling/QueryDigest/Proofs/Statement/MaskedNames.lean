import QueryDigest.Proofs.Statement.RenumberedFingerprints
import QueryDigest.Proofs.Text.DigitMarks

/-!
Masked names. The pattern for a number takes an underscore in front of it along, and masking writes
the underscore back, so that it comes to one mark for each maximal run of digits, with an underscore
as a character like any other.
-/

namespace QueryDigest.Fingerprint

open Pattern
open Text (isDigitAt Digits markRuns)

/-- What stands in the name in the place of a number. -/
def numberMask (h : Hit) : Text :=
  h.group 0 ++ ['?']

theorem run_digits {ds rest : Text} (hds : Digits ds) (hend : isDigitAt rest.head? = false)
    {a : Attempt} (hafter : a.after = ds ++ rest) (onward : Onward) :
    digits.run a onward = onward (a.take ds rest) := by
  refine run_someOf hds.nonempty hds.digit (fun c hc => ?_) hafter onward
  rwa [hc] at hend

section

variable {ds rest : Text} (hds : Digits ds) (hend : isDigitAt rest.head? = false) (before : Text)

include hds hend

theorem replaceFrom_run : number.replaceFrom numberMask before (ds ++ rest) =
    '?' :: number.replaceFrom numberMask (ds.reverse ++ before) rest := by
  have hhead : (ds ++ rest).head? ≠ some '_' := by
    intro hc
    have hdigit := hds.head rest
    rw [hc] at hdigit
    cases hdigit
  have hmatch : number.matchAt? ⟨before, ds ++ rest⟩ =
      some ⟨⟨before, ds ++ rest⟩, ds.length, [(0, 0)]⟩ := by
    change Option.map _ (number.run (.start ⟨before, ds ++ rest⟩) some) = _
    rw [number, run_append, run_group, Pattern.optional, run_or, run_char_none hhead,
      Option.none_or]
    change Option.map _ (digits.run (Attempt.close 0 (.start ⟨before, ds ++ rest⟩)) some) = _
    rw [run_digits hds hend rfl]
    simp [Attempt.close, Attempt.start]
  rw [replaceFrom_hit hmatch hds.nonempty rfl]
  rfl

/-- An underscore in front of a number stays, whether or not it is taken along. -/
theorem replaceFrom_underscore : number.replaceFrom numberMask before ('_' :: (ds ++ rest)) =
    '_' :: number.replaceFrom numberMask ('_' :: before) (ds ++ rest) := by
  have hmatch : number.matchAt? ⟨before, '_' :: ds ++ rest⟩ =
      some ⟨⟨before, '_' :: ds ++ rest⟩, ds.length + 1, [(0, 1)]⟩ := by
    change Option.map _ (number.run (.start ⟨before, '_' :: ds ++ rest⟩) some) = _
    rw [number, run_append, run_group, Pattern.optional, run_or, run_char rfl,
      run_digits hds hend rfl, Option.some_or]
    simp [Attempt.close, Attempt.start, Nat.add_comm]
  rw [replaceFrom_run hds hend, ← List.cons_append,
    replaceFrom_hit hmatch (List.cons_ne_nil '_' ds) rfl, List.reverse_cons, List.append_assoc]
  rfl

end

theorem matchAt?_number_none {before rest : Text} {c : Char} (hc : c.isDigit = false)
    (hrest : c = '_' → isDigitAt rest.head? = false) :
    number.matchAt? ⟨before, c :: rest⟩ = none := by
  have hnone : ∀ {a : Attempt}, isDigitAt a.after.head? = false → digits.run a some = none := by
    intro a ha
    rw [digits, someOf, run_append]
    refine run_one_none (fun d hd => ?_) _
    rwa [hd] at ha
  rw [matchAt?_eq_none, number, run_append, run_group, Pattern.optional, run_or]
  have hempty : digits.run (Attempt.close 0 (.start ⟨before, c :: rest⟩)) some = none := hnone hc
  by_cases hunderscore : c = '_'
  · subst hunderscore
    rw [run_char rfl, hnone (hrest rfl), Option.none_or]
    exact hempty
  · rw [run_char_none (by simpa [Attempt.start] using hunderscore), Option.none_or]
    exact hempty

theorem replaceFrom_other {before rest : Text} {c : Char} (hc : c.isDigit = false) :
    number.replaceFrom numberMask before (c :: rest) =
      c :: number.replaceFrom numberMask (c :: before) rest := by
  by_cases htaken : c = '_' ∧ isDigitAt rest.head? = true
  · obtain ⟨rfl, hrest⟩ := htaken
    obtain ⟨ds, rest, rfl, hds, hend⟩ := Text.exists_run hrest
    exact replaceFrom_underscore hds hend before
  · have hnone : number.matchAt? ⟨before, c :: rest⟩ = none :=
      matchAt?_number_none hc fun h => Bool.eq_false_iff.mpr fun hrest => htaken ⟨h, hrest⟩
    have hkept : ∀ h, number.matchAt? ⟨before, c :: rest⟩ = some h → h.length = 0 := by
      intro h hmatch
      rw [hnone] at hmatch
      cases hmatch
    rw [replaceFrom, piecesFrom_kept hkept, List.flatMap_cons]
    rfl

theorem maskNumbers_eq_markRuns (t : Text) : maskNumbers t = markRuns t := by
  have hfrom : ∀ before, number.replaceFrom numberMask before t = markRuns t := by
    induction t using Text.byRuns with
    | nil => exact fun _ => Text.markRuns_nil.symm
    | other c t hc ih =>
        intro before
        rw [replaceFrom_other hc, ih, Text.markRuns_other hc]
    | run ds t hds hend ih =>
        intro before
        rw [replaceFrom_run hds hend, ih, Text.markRuns_run hds hend]
  exact hfrom []

/-- Masking writes one mark for each maximal run of digits and keeps all else. No digit is left, a
second time changes nothing, and two texts can be masked apart just where no run goes on across the
seam. -/
theorem maskNumbers_laws (t : Text) :
    maskNumbers t = markRuns t ∧
      (∀ c ∈ maskNumbers t, c.isDigit = false) ∧
      maskNumbers (maskNumbers t) = maskNumbers t ∧
      ∀ u, maskNumbers (t ++ u) = maskNumbers t ++ maskNumbers u ↔
        ¬ (isDigitAt t.getLast? = true ∧ isDigitAt u.head? = true) := by
  have hdigitless : ∀ c ∈ markRuns t, c.isDigit = false := fun _ =>
    Text.not_isDigit_of_mem_markRuns
  refine ⟨maskNumbers_eq_markRuns t, ?_⟩
  simp only [maskNumbers_eq_markRuns]
  exact ⟨hdigitless, Text.markRuns_of_no_digit hdigitless, fun u => Text.markRuns_append_iff⟩

end QueryDigest.Fingerprint
