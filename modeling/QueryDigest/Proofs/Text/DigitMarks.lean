import QueryDigest.Proofs.Text.Renumbering

/-!
Texts with a mark in the place of each number. Runs of digits are maximal, so that marking two texts
apart marks what they join to, unless a run goes on across the seam; then one mark is too many.
-/

namespace QueryDigest.Text

/-- A text with one question mark in the place of each maximal run of digits. -/
def markRuns : Text → Text
  | [] => []
  | c :: rest =>
    if c.isDigit then '?' :: markRuns (rest.dropWhile Char.isDigit) else c :: markRuns rest
termination_by t => t.length
decreasing_by
  · exact Nat.lt_succ_of_le (List.dropWhile_suffix Char.isDigit).length_le
  · exact Nat.lt_succ_self rest.length

/-- A text is characters that are no digits and maximal runs of digits, one behind the other. -/
@[elab_as_elim]
theorem byRuns {motive : Text → Prop} (nil : motive [])
    (other : ∀ (c : Char) (t : Text), c.isDigit = false → motive t → motive (c :: t))
    (run : ∀ ds t : Text, Digits ds → isDigitAt t.head? = false → motive t → motive (ds ++ t))
    (t : Text) : motive t := by
  have h := renumbered_masked t
  generalize masked t = t' at h
  induction h with
  | nil => exact nil
  | other hc _ ih => exact other _ _ hc ih
  | run hds _ hend _ ih => exact run _ _ hds hend ih

variable {c : Char} {ds rest t u : Text}

theorem exists_run (h : isDigitAt t.head? = true) :
    ∃ ds rest, t = ds ++ rest ∧ Digits ds ∧ isDigitAt rest.head? = false := by
  cases t using byRuns with
  | nil => cases h
  | other c t hc => exact absurd h (Bool.eq_false_iff.mp hc)
  | run ds rest hds hend => exact ⟨ds, rest, rfl, hds, hend⟩

theorem isDigitAt_getLast? (h : Digits ds) : isDigitAt ds.getLast? = true := by
  rw [List.getLast?_eq_some_getLast h.nonempty]
  exact h.digit _ (List.getLast_mem h.nonempty)

theorem markRuns_nil : markRuns [] = [] := by
  rw [markRuns]

theorem markRuns_other (hc : c.isDigit = false) (rest : Text) :
    markRuns (c :: rest) = c :: markRuns rest := by
  rw [markRuns, if_neg (Bool.eq_false_iff.mp hc)]

theorem markRuns_run (hds : Digits ds) (hend : isDigitAt rest.head? = false) :
    markRuns (ds ++ rest) = '?' :: markRuns rest := by
  obtain ⟨d, ds, rfl⟩ := List.exists_cons_of_ne_nil hds.nonempty
  obtain ⟨hd, hdigit⟩ := List.forall_mem_cons.mp hds.digit
  have hdrop : (ds ++ rest).dropWhile Char.isDigit = rest := by
    rw [List.dropWhile_append_of_pos hdigit]
    cases rest with
    | nil => rfl
    | cons c rest => exact List.dropWhile_cons_of_neg (Bool.eq_false_iff.mp hend)
  rw [List.cons_append, markRuns, if_pos hd, hdrop]

/-- Digits in front of a run of digits are part of that run. -/
theorem markRuns_digits (hds : Digits ds) (hu : isDigitAt u.head? = true) :
    markRuns (ds ++ u) = markRuns u := by
  obtain ⟨es, rest, rfl, hes, hend⟩ := exists_run hu
  rw [← List.append_assoc, markRuns_run (hds.append hes) hend, markRuns_run hes hend]

theorem markRuns_eq_nil_iff : markRuns t = [] ↔ t = [] := by
  cases t with
  | nil => rw [markRuns_nil]
  | cons c rest =>
      rw [markRuns]
      split <;> simp

theorem not_isDigit_of_mem_markRuns (hc : c ∈ markRuns t) : c.isDigit = false := by
  induction t using byRuns with
  | nil =>
      rw [markRuns_nil] at hc
      cases hc
  | other d t hd ih =>
      rw [markRuns_other hd] at hc
      obtain rfl | hc := List.mem_cons.mp hc
      · exact hd
      · exact ih hc
  | run ds t hds hend ih =>
      rw [markRuns_run hds hend] at hc
      obtain rfl | hc := List.mem_cons.mp hc
      · rfl
      · exact ih hc

theorem mem_markRuns (hc : c ∈ markRuns t) : c ∈ t ∨ c = '?' := by
  induction t using byRuns with
  | nil =>
      rw [markRuns_nil] at hc
      cases hc
  | other d t hd ih =>
      rw [markRuns_other hd] at hc
      obtain rfl | hc := List.mem_cons.mp hc
      · exact Or.inl List.mem_cons_self
      · exact (ih hc).imp_left (List.mem_cons_of_mem d)
  | run ds t hds hend ih =>
      rw [markRuns_run hds hend] at hc
      obtain rfl | hc := List.mem_cons.mp hc
      · exact Or.inr rfl
      · exact (ih hc).imp_left (List.mem_append_right ds)

theorem markRuns_of_no_digit (h : ∀ c ∈ t, c.isDigit = false) : markRuns t = t := by
  induction t with
  | nil => exact markRuns_nil
  | cons c t ih =>
      obtain ⟨hc, ht⟩ := List.forall_mem_cons.mp h
      rw [markRuns_other hc, ih ht]

/-! ### Seams -/

theorem isDigitAt_getLast?_cons (hc : c.isDigit = false) (t : Text) :
    isDigitAt (c :: t).getLast? = isDigitAt t.getLast? := by
  cases t with
  | nil => exact hc
  | cons d t => rw [List.getLast?_cons_cons]

theorem markRuns_append (h : ¬ (isDigitAt t.getLast? = true ∧ isDigitAt u.head? = true)) :
    markRuns (t ++ u) = markRuns t ++ markRuns u := by
  induction t using byRuns with
  | nil => rw [markRuns_nil, List.nil_append, List.nil_append]
  | other c t hc ih =>
      rw [isDigitAt_getLast?_cons hc] at h
      rw [List.cons_append, markRuns_other hc, markRuns_other hc, ih h, List.cons_append]
  | run ds t hds hend ih =>
      cases t with
      | nil =>
          rw [List.append_nil] at h
          have hu : isDigitAt u.head? = false :=
            Bool.eq_false_iff.mpr fun hu => h ⟨isDigitAt_getLast? hds, hu⟩
          rw [markRuns_run hds rfl, List.append_nil, markRuns_run hds hu, markRuns_nil]
          rfl
      | cons c t =>
          rw [List.getLast?_append_cons] at h
          have hend' : isDigitAt (c :: t ++ u).head? = false := hend
          rw [List.append_assoc, markRuns_run hds hend', markRuns_run hds hend, ih h,
            List.cons_append]

/-- Where a run goes on across the seam, the mark for its first part is left out. -/
theorem markRuns_append_digits (ht : isDigitAt t.getLast? = true)
    (hu : isDigitAt u.head? = true) : markRuns (t ++ u) = (markRuns t).dropLast ++ markRuns u := by
  induction t using byRuns with
  | nil => cases ht
  | other c t hc ih =>
      rw [isDigitAt_getLast?_cons hc] at ht
      have hne : markRuns t ≠ [] := by
        rw [ne_eq, markRuns_eq_nil_iff]
        rintro rfl
        cases ht
      rw [List.cons_append, markRuns_other hc, markRuns_other hc, ih ht,
        List.dropLast_cons_of_ne_nil hne, List.cons_append]
  | run ds t hds hend ih =>
      cases t with
      | nil =>
          rw [markRuns_run hds rfl, List.append_nil, markRuns_digits hds hu, markRuns_nil]
          rfl
      | cons c t =>
          rw [List.getLast?_append_cons] at ht
          have hend' : isDigitAt (c :: t ++ u).head? = false := hend
          have hne : markRuns (c :: t) ≠ [] := by
            rw [ne_eq, markRuns_eq_nil_iff]
            exact List.cons_ne_nil c t
          rw [List.append_assoc, markRuns_run hds hend', markRuns_run hds hend, ih ht,
            List.dropLast_cons_of_ne_nil hne, List.cons_append]

theorem markRuns_append_iff : markRuns (t ++ u) = markRuns t ++ markRuns u ↔
    ¬ (isDigitAt t.getLast? = true ∧ isDigitAt u.head? = true) := by
  refine ⟨?_, markRuns_append⟩
  rintro h ⟨ht, hu⟩
  rw [markRuns_append_digits ht hu] at h
  have hlengths := congrArg List.length (List.append_cancel_right h)
  have hne : t ≠ [] := by
    rintro rfl
    cases ht
  have hpos := List.length_pos_iff.mpr (mt markRuns_eq_nil_iff.mp hne)
  rw [List.length_dropLast] at hlengths
  omega

end QueryDigest.Text
