import QueryDigest.Proofs.Pattern.Runs

/-!
What a pattern passes over. A run that goes on behind a pattern without groups has taken a text of
the language that its form describes, so that a match can be read as a sentence.
-/

namespace QueryDigest.Pattern

open Unicode (foldLetter isBlank)

/-- An attempt that goes on behind the pattern does so behind a text of the language. -/
def Passes (p : Pattern) (L : Text → Prop) : Prop :=
  ∀ ⦃a b : Attempt⦄ ⦃onward : Onward⦄, p.run a onward = some b →
    ∃ u rest, L u ∧ a.after = u ++ rest ∧ onward (a.take u rest) = some b

section

variable {p q : Pattern} {L M : Text → Prop}

theorem Passes.imp (hp : Passes p L) (h : ∀ u, L u → M u) : Passes p M := by
  intro a b onward hrun
  obtain ⟨u, rest, hu, hafter, honward⟩ := hp hrun
  exact ⟨u, rest, h u hu, hafter, honward⟩

theorem Passes.append (hp : Passes p L) (hq : Passes q M) :
    Passes (p ++ q) fun w => ∃ u v, L u ∧ M v ∧ w = u ++ v := by
  intro a b onward hrun
  obtain ⟨u, behind, hu, hafter, hrun⟩ := hp hrun
  obtain ⟨v, rest, hv, hbehind, honward⟩ := hq hrun
  obtain rfl : behind = v ++ rest := hbehind
  rw [Attempt.take_take] at honward
  exact ⟨u ++ v, rest, ⟨u, v, hu, hv, rfl⟩, by rw [hafter, List.append_assoc], honward⟩

theorem Passes.or (hp : Passes p L) (hq : Passes q M) : Passes (p ||| q) fun w => L w ∨ M w := by
  intro a b onward hrun
  rw [run_or, Option.or_eq_some_iff] at hrun
  obtain hrun | ⟨_, hrun⟩ := hrun
  · exact hp.imp (fun _ => Or.inl) hrun
  · exact hq.imp (fun _ => Or.inr) hrun

theorem passes_empty : Passes .empty (· = []) := by
  intro a b onward hrun
  exact ⟨[], a.after, rfl, rfl, by rwa [Attempt.take_nil]⟩

theorem Passes.optional (hp : Passes p L) : Passes (optional p) fun w => L w ∨ w = [] :=
  hp.or passes_empty

theorem passes_one (ok : Char → Bool) : Passes (.one ok) fun w => ∃ c, ok c = true ∧ w = [c] := by
  intro a b onward hrun
  rw [run_one, Option.bind_eq_some_iff] at hrun
  obtain ⟨_, hnext, honward⟩ := hrun
  obtain ⟨c, rest, hafter, hc, rfl⟩ := Attempt.next?_eq_some.mp hnext
  exact ⟨[c], rest, ⟨c, hc, rfl⟩, hafter, honward⟩

theorem passes_char (c : Char) : Passes (char c) (· = [c]) := by
  refine (passes_one (· == c)).imp ?_
  rintro _ ⟨d, hd, rfl⟩
  rw [beq_iff_eq.mp hd]

theorem passes_allOf (ok : Char → Bool) : Passes (allOf ok) fun w => ∀ c ∈ w, ok c = true := by
  intro a b onward hrun
  rw [allOf, run_all, Attempt.furthest_eq_take] at hrun
  exact ⟨_, _, fun c hc => List.mem_takeWhile_imp hc, List.takeWhile_append_dropWhile.symm, hrun⟩

theorem passes_someOf (ok : Char → Bool) :
    Passes (someOf ok) fun w => w ≠ [] ∧ ∀ c ∈ w, ok c = true := by
  refine ((passes_one ok).append (passes_allOf ok)).imp ?_
  rintro _ ⟨_, v, ⟨c, hc, rfl⟩, hv, rfl⟩
  exact ⟨List.cons_ne_nil c v, List.forall_mem_cons.mpr ⟨hc, hv⟩⟩

theorem passes_blanks : Passes blanks Text.Blank :=
  (passes_someOf isBlank).imp fun _ h => ⟨h.1, h.2⟩

theorem passes_keyword (t : Text) :
    Passes (keyword t) fun w => w.map foldLetter = t.map foldLetter := by
  intro a b onward hrun
  obtain ⟨w, rest, hafter, hw, honward⟩ := run_keyword_eq_some hrun
  exact ⟨w, rest, hw, hafter, honward⟩

theorem Passes.rounds (hp : Passes p L) (ahead : Text) {a b : Attempt} {onward : Onward}
    (hrun : rounds p.run ahead a onward = some b) :
    ∃ us : List Text, ∃ rest, (∀ u ∈ us, L u) ∧ a.after = us.flatten ++ rest ∧
      onward (a.take us.flatten rest) = some b := by
  have hstop : ∀ {a : Attempt}, onward a = some b → ∃ us : List Text, ∃ rest,
      (∀ u ∈ us, L u) ∧ a.after = us.flatten ++ rest ∧
        onward (a.take us.flatten rest) = some b := fun {a} honward =>
    ⟨[], a.after, List.forall_mem_nil _, rfl, by rwa [List.flatten_nil, Attempt.take_nil]⟩
  induction ahead generalizing a with
  | nil => exact hstop hrun
  | cons c ahead ih =>
      rw [rounds_cons, Option.or_eq_some_iff] at hrun
      obtain hrun | ⟨_, honward⟩ := hrun
      · obtain ⟨u, behind, hu, hafter, hmore⟩ := hp hrun
        rw [Option.ite_none_right_eq_some] at hmore
        obtain ⟨us, rest, hus, hbehind, honward⟩ := ih hmore.2
        obtain rfl : behind = us.flatten ++ rest := hbehind
        rw [Attempt.take_take] at honward
        refine ⟨u :: us, rest, List.forall_mem_cons.mpr ⟨hu, hus⟩, ?_, ?_⟩
        · rw [hafter, List.flatten_cons, List.append_assoc]
        · rwa [List.flatten_cons]
      · exact hstop honward

/-- Rounds pass over texts of the language in a row. -/
theorem Passes.many (hp : Passes p L) :
    Passes (.many p) fun w => ∃ us : List Text, (∀ u ∈ us, L u) ∧ w = us.flatten := by
  intro a b onward hrun
  obtain ⟨us, rest, hus, hafter, honward⟩ := hp.rounds a.after hrun
  exact ⟨us.flatten, rest, ⟨us, hus, rfl⟩, hafter, honward⟩

end

end QueryDigest.Pattern
