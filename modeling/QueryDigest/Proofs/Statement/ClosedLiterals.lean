import Mathlib.Algebra.Group.Nat.Even
import QueryDigest.Proofs.Pattern.Cuts
import QueryDigest.Proofs.Statement.Literals

/-!
Texts that close the literals they open. Behind such a text literals are blanked out as if they
stood alone, so that a text without quotes stays as it is there.
-/

namespace QueryDigest.Extraction

open Pattern
open Unicode (foldLetter isBlank)

/-! ### Escaped quotes -/

theorem matchAt?_escaped {q : Char} (hq : q ∈ quotes) (before rest : Text) :
    escapedQuote.matchAt? ⟨before, '\\' :: q :: rest⟩ =
      some ⟨⟨before, '\\' :: q :: rest⟩, 2, []⟩ := by
  simp only [quotes, List.mem_cons, List.not_mem_nil, or_false] at hq
  obtain rfl | rfl := hq <;> rfl

theorem matchAt?_unescaped {rest : Text} (h : ∀ c, rest.head? = some c → c ∉ quotes)
    (c : Char) (before : Text) : escapedQuote.matchAt? ⟨before, c :: rest⟩ = none := by
  by_cases hc : c = '\\'
  · subst hc
    cases rest with
    | nil => rfl
    | cons d rest =>
        have hd := h d rfl
        simp only [quotes, List.mem_cons, List.not_mem_nil, or_false, not_or] at hd
        simp [matchAt?, escapedQuote, run_append, char, run, hd.1, hd.2]
  · exact matchAt?_escapedQuote hc before rest

/-- A backslash at the end escapes nothing that stands behind it, unless that is a quote. -/
theorem cut_escapedQuote (u : Text) {v : Text} (hv : ∀ c, v.head? = some c → c ∉ quotes) :
    Cut escapedQuote u v := by
  intro s _ hs before
  obtain ⟨c, s, rfl⟩ := List.exists_cons_of_ne_nil hs
  cases s with
  | nil =>
      refine Or.inl fun tail htail => ?_
      obtain rfl | rfl : tail = v ∨ tail = [] := by simpa using htail
      · exact matchAt?_unescaped hv c before
      · exact matchAt?_unescaped (by simp) c before
  | cons d s =>
      by_cases h : c = '\\' ∧ d ∈ quotes
      · obtain ⟨rfl, hd⟩ := h
        exact Or.inr ⟨['\\', d], s, rfl, List.cons_ne_nil _ _, fun tail _ =>
          ⟨_, matchAt?_escaped hd before (s ++ tail), rfl⟩⟩
      · refine Or.inl fun tail _ => ?_
        by_cases hc : c = '\\'
        · refine matchAt?_unescaped ?_ c before
          rintro _ ⟨⟩ hd
          exact h ⟨hc, hd⟩
        · exact matchAt?_escapedQuote hc before _

/-! ### Literals -/

theorem turns_unquoted {q : Char} {u : Text} (hu : q ∉ u) (r before rest : Text) :
    Turns (literal q) r before u rest u :=
  turns_of_chars (P := (· ≠ q)) (fun hc => matchAt?_literal hc _ _)
    fun _ hc heq => hu (heq ▸ hc)

/-- A text with quotes, an even number of them, has a literal in front of such a text. -/
theorem exists_literal {q : Char} {u : Text} (hmem : q ∈ u) (h : Even (u.count q)) :
    ∃ a b u', u = a ++ (q :: (b ++ [q]) ++ u') ∧ q ∉ a ∧ q ∉ b ∧ Even (u'.count q) := by
  obtain ⟨a, u₁, rfl, ha⟩ := List.eq_append_cons_of_mem hmem
  rw [List.count_append, List.count_cons_self, List.count_eq_zero.mpr ha, Nat.zero_add] at h
  have hmem' : q ∈ u₁ := by
    by_contra hnot
    rw [List.count_eq_zero.mpr hnot] at h
    exact absurd h Nat.not_even_one
  obtain ⟨b, u', rfl, hb⟩ := List.eq_append_cons_of_mem hmem'
  rw [List.count_append, List.count_cons_self, List.count_eq_zero.mpr hb] at h
  refine ⟨a, b, u', by simp, ha, hb, ?_⟩
  rw [Nat.even_iff] at h ⊢
  omega

/-- An even number of quotes makes up literals that are all closed, wherever the text stands. -/
theorem turns_literals {q : Char} {u : Text} (h : Even (u.count q)) (r : Text) :
    ∃ u', ∀ before rest, Turns (literal q) r before u rest u' := by
  induction hlength : u.length using Nat.strong_induction_on generalizing u with
  | h n ih =>
      subst hlength
      by_cases hmem : q ∈ u
      · obtain ⟨a, b, u₁, rfl, ha, hb, hcount⟩ := exists_literal hmem h
        have hshort : u₁.length < (a ++ (q :: (b ++ [q]) ++ u₁)).length := by
          simp only [List.length_append, List.length_cons]
          omega
        obtain ⟨u₁', hbehind⟩ := ih u₁.length hshort hcount rfl
        have hliteral : ∀ before rest, Turns (literal q) r before (q :: (b ++ [q])) rest r := by
          intro before rest
          have hmatch := matchAt?_literal_closed hb before rest
          rw [← List.singleton_append (l := rest), ← List.append_assoc, ← List.cons_append]
            at hmatch
          exact turns_hit hmatch (by simp) (List.cons_ne_nil q _)
        exact ⟨a ++ (r ++ u₁'), fun before rest =>
          (turns_unquoted ha r _ _).append ((hliteral _ _).append (hbehind _ rest))⟩
      · exact ⟨u, turns_unquoted hmem r⟩

theorem turns_closed {q : Char} {u : Text} (h : Even (u.count q)) (r rest : Text) :
    Turns (literal q) r [] u rest ((literal q).replaceAll (fun _ => r) u) := by
  obtain ⟨u', hturns⟩ := turns_literals h r
  rw [(hturns [] []).replaceAll]
  exact hturns [] rest

/-- A text closes each literal that it opens. -/
structure Closed (u : Text) : Prop where
  double : Even ((escapedQuote.removeAll u).count '"')
  single : Even (((literal '"').replaceAll (fun _ => ['?']) (escapedQuote.removeAll u)).count '\'')

theorem harmless_of_isBlank {c : Char} (h : isBlank c = true) : Harmless c := by
  refine ⟨?_, ?_, ?_⟩ <;>
  · rintro rfl
    cases h

theorem harmless_of_fold {w k : Text} (hw : w.map foldLetter = k.map foldLetter)
    (hk : ∀ x ∈ ['\'', '"', '\\'], foldLetter x ∉ k.map foldLetter) : ∀ c ∈ w, Harmless c := by
  have hne : ∀ c ∈ w, ∀ x ∈ ['\'', '"', '\\'], c ≠ x := by
    rintro c hc x hx rfl
    exact hk c hx (hw ▸ List.mem_map_of_mem hc)
  exact fun c hc => ⟨hne c hc _ (by simp), hne c hc _ (by simp), hne c hc _ (by simp)⟩

theorem Harmless.ne {c q : Char} (hc : Harmless c) (hq : q ∈ quotes) : c ≠ q := by
  simp only [quotes, List.mem_cons, List.not_mem_nil, or_false] at hq
  obtain rfl | rfl := hq
  · exact hc.1
  · exact hc.2.1

theorem turns_harmless_escapes {x : Text} (hx : ∀ c ∈ x, Harmless c) (before rest : Text) :
    Turns escapedQuote [] before x rest x :=
  turns_of_chars (P := Harmless) (fun hc => matchAt?_escapedQuote hc.2.2 _ _) hx

theorem turns_harmless {x : Text} (hx : ∀ c ∈ x, Harmless c) {q : Char} (hq : q ∈ quotes)
    (r before rest : Text) : Turns (literal q) r before x rest x :=
  turns_of_chars (P := Harmless) (fun hc => matchAt?_literal (hc.ne hq) _ _) hx

theorem matchAt?_escapedQuote_blank {b : Char} {before rest : Text} (hb : isBlank b = true) :
    escapedQuote.matchAt? ⟨before, b :: rest⟩ = none :=
  matchAt?_escapedQuote (harmless_of_isBlank hb).2.2 before rest

theorem matchAt?_literal_blank {q : Char} (hq : q ∈ quotes) {b : Char} {before rest : Text}
    (hb : isBlank b = true) : (literal q).matchAt? ⟨before, b :: rest⟩ = none :=
  matchAt?_literal ((harmless_of_isBlank hb).ne hq) before rest

/-- Behind a text that closes its literals a harmless text stays, with the white space behind it. -/
theorem blankLiterals_closed {u x rest : Text} (hu : Closed u) (hne : x ≠ [])
    (hx : ∀ c ∈ x, Harmless c) (hrest : ∀ c, rest.head? = some c → isBlank c = true) :
    ∃ rest', blankLiterals (u ++ (x ++ rest)) = blankLiterals u ++ (x ++ rest') ∧
      ∀ c, rest'.head? = some c → isBlank c = true := by
  have hhead : ∀ rest c, (x ++ rest).head? = some c → c ∉ quotes := by
    obtain ⟨d, x, rfl⟩ := List.exists_cons_of_ne_nil hne
    rintro rest _ ⟨⟩ hquote
    exact (hx d List.mem_cons_self).ne hquote rfl
  have hescapes := (cut_escapedQuote u (hhead rest)).turns_replaceAll []
  obtain ⟨rest₁, h₁, hrest₁⟩ := replaceAll_around hescapes
    (fun before => turns_harmless_escapes hx before rest) matchAt?_escapedQuote_blank hrest
  have hdouble := turns_closed hu.double ['?'] (x ++ rest₁)
  obtain ⟨rest₂, h₂, hrest₂⟩ := replaceAll_around hdouble
    (fun before => turns_harmless hx (by decide) _ before rest₁)
    (matchAt?_literal_blank (by decide)) hrest₁
  have hsingle := turns_closed hu.single ['?'] (x ++ rest₂)
  obtain ⟨rest₃, h₃, hrest₃⟩ := replaceAll_around hsingle
    (fun before => turns_harmless hx (by decide) _ before rest₂)
    (matchAt?_literal_blank (by decide)) hrest₂
  refine ⟨rest₃, ?_, hrest₃⟩
  simp only [blankLiterals, removeAll] at *
  rw [h₁, h₂, h₃]

end QueryDigest.Extraction
