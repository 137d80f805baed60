import QueryDigest.Proofs.Pattern.Replacing
import QueryDigest.Proofs.Pattern.Runs
import QueryDigest.Statement.Classification
import QueryDigest.Statement.Extraction

/-!
Existence clauses of data definitions. One pass writes a space for a clause and the white space in
front of it, another pass takes away the clause alone. Where white space stands in front of every
clause the two passes leave texts that differ in white space only.
-/

namespace QueryDigest

open Pattern
open Text (Blank Respaced)
open Unicode (foldLetter isBlank)

/-- The text reads as `IF EXISTS` or as `IF NOT EXISTS`, with any white space between the words. -/
inductive Existence : Text → Prop where
  | plain {i bs e : Text} (hi : i.map foldLetter = "IF".toList) (hbs : Blank bs)
      (he : e.map foldLetter = "EXISTS".toList) : Existence (i ++ (bs ++ e))
  | negated {i bs n bs' e : Text} (hi : i.map foldLetter = "IF".toList) (hbs : Blank bs)
      (hn : n.map foldLetter = "NOT".toList) (hbs' : Blank bs')
      (he : e.map foldLetter = "EXISTS".toList) : Existence (i ++ (bs ++ (n ++ (bs' ++ e))))

/-! ### The two patterns -/

namespace Existence

/-- What is tried behind the first white space of a clause. -/
def behind (onward : Onward) (a : Attempt) : Option Attempt :=
  ((keyword "NOT".toList).run a fun b => blanks.run b fun c =>
    (keyword "EXISTS".toList).run c onward).or ((keyword "EXISTS".toList).run a onward)

theorem run_clause (a : Attempt) (onward : Onward) :
    Extraction.existenceClause.run a onward =
      (keyword "IF".toList).run a fun b => blanks.run b (behind onward) := by
  rw [Extraction.existenceClause, run_append, run_append, run_append]
  simp only [Pattern.optional, run_or]
  rfl

/-- Both patterns run alike behind the white space that one of them starts with. -/
theorem run_spaced (a : Attempt) (onward : Onward) :
    Classification.existenceClause.run a onward =
      blanks.run a fun b => Extraction.existenceClause.run b onward := by
  have hbehind : ∀ b : Attempt, blanks.run b (behind onward) =
      (Pattern.optional (blanks ++ keyword "NOT".toList)).run b fun c => blanks.run c fun d =>
        (keyword "EXISTS".toList).run d onward := by
    intro b
    rw [Pattern.optional, run_or]
    exact run_blanks_or b _ _
  simp only [run_clause, hbehind]
  rfl

theorem head {cl : Text} (h : Existence cl) (rest : Text) :
    ∀ c, (cl ++ rest).head? = some c → isBlank c = false := by
  cases h with
  | plain hi hbs he | negated hi hbs hn hbs' he =>
      rw [List.append_assoc]
      exact (nonblank_of_fold hi (by decide) (by decide)).1 _

theorem last {cl : Text} (h : Existence cl) : ∃ u d, cl = u ++ [d] ∧ isBlank d = false := by
  cases h with
  | plain hi hbs he | negated hi hbs hn hbs' he =>
      obtain ⟨u, d, rfl, hd⟩ := (nonblank_of_fold he (by decide) (by decide)).2
      simp only [← List.append_assoc]
      exact ⟨_, d, rfl, hd⟩

theorem first {cl : Text} (h : Existence cl) : ∃ c more, cl = c :: more ∧ foldLetter c = 'I' := by
  cases h with
  | plain hi hbs he | negated hi hbs hn hbs' he =>
      obtain ⟨c, more, rfl, hc, _⟩ := List.map_eq_cons_iff.mp hi
      exact ⟨c, _, rfl, hc⟩

theorem blank {cl : Text} (h : Existence cl) : ∃ b ∈ cl, isBlank b = true := by
  cases h with
  | plain hi hbs he | negated hi hbs hn hbs' he =>
      obtain ⟨b, hb⟩ := List.exists_mem_of_ne_nil _ hbs.nonempty
      exact ⟨b, by simp [hb], hbs.blank b hb⟩

theorem none_of_first {c : Char} {t : Text} (hc : foldLetter c ≠ 'I') :
    ∀ cl rest, c :: t = cl ++ rest → ¬ Existence cl := by
  intro cl rest hsplit hcl
  obtain ⟨i, more, rfl, hi⟩ := hcl.first
  exact hc ((List.cons.inj hsplit).1 ▸ hi)

theorem none_of_nonblank {w : Text} (hw : ∀ c ∈ w, isBlank c = false) :
    ∀ cl rest, w = cl ++ rest → ¬ Existence cl := by
  intro cl rest hsplit hcl
  obtain ⟨b, hmem, hb⟩ := hcl.blank
  rw [hw b (hsplit ▸ List.mem_append_left rest hmem)] at hb
  cases hb

theorem run_clause_of_reads {cl rest : Text} (h : Existence cl) {a : Attempt}
    (hafter : a.after = cl ++ rest) (onward : Onward) :
    Extraction.existenceClause.run a onward = onward (a.take cl rest) := by
  rw [run_clause]
  cases h with
  | plain hi hbs he =>
      rename_i i bs e
      have hnot : ∀ b : Attempt, b.after = e ++ rest → ∀ onward,
          (keyword "NOT".toList).run b onward = none :=
        fun b hb => run_keyword_apart (by rw [he]; decide) hb
      rw [List.append_assoc, List.append_assoc] at hafter
      have hnext := (nonblank_of_fold he (by decide) (by decide)).1 rest
      rw [run_keyword hi hafter, run_blanks hbs hnext rfl, behind, hnot _ rfl, Option.none_or,
        run_keyword he rfl, Attempt.take_take, Attempt.take_take]
  | negated hi hbs hn hbs' he =>
      rename_i i bs n bs' e
      have hexists : ∀ b : Attempt, b.after = n ++ (bs' ++ (e ++ rest)) → ∀ onward,
          (keyword "EXISTS".toList).run b onward = none :=
        fun b hb => run_keyword_apart (by rw [hn]; decide) hb
      simp only [List.append_assoc] at hafter
      have hnext := (nonblank_of_fold hn (by decide) (by decide)).1 (bs' ++ (e ++ rest))
      have hnext' := (nonblank_of_fold he (by decide) (by decide)).1 rest
      rw [run_keyword hi hafter, run_blanks hbs hnext rfl, behind, hexists _ rfl, Option.or_none,
        run_keyword hn rfl, run_blanks hbs' hnext' rfl, run_keyword he rfl]
      simp only [Attempt.take_take, List.append_assoc]

theorem of_run {a b : Attempt} {onward : Onward}
    (h : Extraction.existenceClause.run a onward = some b) :
    ∃ cl rest, a.after = cl ++ rest ∧ Existence cl := by
  rw [run_clause] at h
  obtain ⟨i, r₁, hi, hfold, h⟩ := run_keyword_eq_some h
  obtain ⟨bs, r₂, hbs, hblank, _, h⟩ := run_blanks_eq_some h
  obtain rfl : r₁ = bs ++ r₂ := hbs
  rw [behind, Option.or_eq_some_iff] at h
  obtain h | ⟨_, h⟩ := h
  · obtain ⟨n, r₃, hn, hfold', h⟩ := run_keyword_eq_some h
    obtain ⟨bs', r₄, hbs', hblank', _, h⟩ := run_blanks_eq_some h
    obtain ⟨e, r₅, he, hfold'', _⟩ := run_keyword_eq_some h
    obtain rfl : r₂ = n ++ r₃ := hn
    obtain rfl : r₃ = bs' ++ r₄ := hbs'
    obtain rfl : r₄ = e ++ r₅ := he
    exact ⟨_, r₅, by simp only [hi, List.append_assoc],
      .negated hfold hblank hfold' hblank' hfold''⟩
  · obtain ⟨e, r₃, he, hfold', _⟩ := run_keyword_eq_some h
    obtain rfl : r₂ = e ++ r₃ := he
    exact ⟨_, r₃, by simp only [hi, List.append_assoc], .plain hfold hblank hfold'⟩

theorem exists_infix {cl rest : Text} (h : Existence cl) :
    "EXISTS".toList <:+: (cl ++ rest).map foldLetter := by
  cases h with
  | plain hi hbs he | negated hi hbs hn hbs' he =>
      rw [← he]
      refine List.IsInfix.map foldLetter ?_
      simp only [← List.append_assoc]
      exact ⟨_, rest, rfl⟩

theorem run_clause_none {a : Attempt} (h : ∀ cl rest, a.after = cl ++ rest → ¬ Existence cl)
    (onward : Onward) : Extraction.existenceClause.run a onward = none := by
  cases hrun : Extraction.existenceClause.run a onward with
  | none => rfl
  | some b =>
      obtain ⟨cl, rest, hsplit, hcl⟩ := of_run hrun
      exact absurd hcl (h cl rest hsplit)

theorem matchAt?_clause_none {t : Text} (h : ∀ cl rest, t = cl ++ rest → ¬ Existence cl)
    (before : Text) : Extraction.existenceClause.matchAt? ⟨before, t⟩ = none :=
  matchAt?_eq_none.mpr (run_clause_none h some)

theorem matchAt?_spaced_none {c : Char} (hc : isBlank c = false) {before rest : Text} :
    Classification.existenceClause.matchAt? ⟨before, c :: rest⟩ = none := by
  rw [matchAt?_eq_none, run_spaced, run_blanks_none]
  rintro d ⟨⟩
  exact hc

theorem matchAt?_clause_blank {c : Char} (hc : isBlank c = true) {before rest : Text} :
    Extraction.existenceClause.matchAt? ⟨before, c :: rest⟩ = none := by
  refine matchAt?_clause_none (fun cl more hsplit hcl => ?_) before
  have hfirst := hcl.head more c (hsplit ▸ rfl)
  rw [hc] at hfirst
  cases hfirst

theorem exists_infix_of_match {before t : Text} {h : Hit}
    (hmatch : Extraction.existenceClause.matchAt? ⟨before, t⟩ = some h) :
    "EXISTS".toList <:+: t.map foldLetter := by
  obtain ⟨a, hrun, _⟩ := matchAt?_eq_some hmatch
  obtain ⟨cl, rest, hsplit, hcl⟩ := of_run hrun
  obtain rfl : t = cl ++ rest := hsplit
  exact hcl.exists_infix

theorem exists_infix_of_spaced {before t : Text} {h : Hit}
    (hmatch : Classification.existenceClause.matchAt? ⟨before, t⟩ = some h) :
    "EXISTS".toList <:+: t.map foldLetter := by
  obtain ⟨a, hrun, _⟩ := matchAt?_eq_some hmatch
  rw [run_spaced] at hrun
  obtain ⟨bs, rest, hsplit, _, _, hrun⟩ := run_blanks_eq_some hrun
  obtain rfl : t = bs ++ rest := hsplit
  obtain ⟨cl, rest, rfl, hcl⟩ := of_run hrun
  exact hcl.exists_infix.trans ((List.suffix_append bs _).isInfix.map foldLetter)

/-! ### The passes over a clause -/

section

variable {bs rest : Text} (hbs : Blank bs) (before : Text)

include hbs

theorem turns_clause {cl : Text} (h : Existence cl) :
    Turns Classification.existenceClause [' '] before (bs ++ cl) rest [' '] ∧
      Turns Extraction.existenceClause [] before (bs ++ cl) rest bs := by
  have hne : bs ++ cl ≠ [] := List.append_ne_nil_of_left_ne_nil hbs.nonempty cl
  obtain ⟨u, d, hlast, _⟩ := h.last
  have hne' : cl ≠ [] := by simp [hlast]
  constructor
  · have hmatch : Classification.existenceClause.matchAt? ⟨before, bs ++ cl ++ rest⟩ =
        some ⟨⟨before, bs ++ cl ++ rest⟩, (bs ++ cl).length, []⟩ := by
      rw [matchAt?, run_spaced, run_blanks hbs (h.head rest) (List.append_assoc bs cl rest),
        run_clause_of_reads h rfl]
      simp
    exact turns_hit hmatch rfl hne
  · have hmatch : Extraction.existenceClause.matchAt? ⟨bs.reverse ++ before, cl ++ rest⟩ =
        some ⟨⟨bs.reverse ++ before, cl ++ rest⟩, cl.length, []⟩ := by
      rw [matchAt?, run_clause_of_reads h rfl]
      simp
    have hblank : Turns Extraction.existenceClause [] before bs (cl ++ rest) bs :=
      turns_of_chars (P := fun c => isBlank c = true) (fun hc => matchAt?_clause_blank hc) hbs.blank
    have hall := hblank.append (turns_hit hmatch rfl hne')
    rwa [List.append_nil] at hall

/-- White space in front of anything but a clause stays as it is. -/
theorem turns_blank (hrest : ∀ c, rest.head? = some c → isBlank c = false)
    (hnone : ∀ cl more, rest = cl ++ more → ¬ Existence cl) :
    Turns Classification.existenceClause [' '] before bs rest bs ∧
      Turns Extraction.existenceClause [] before bs rest bs := by
  constructor
  · refine turns_of_no_match fun u c v hsplit => ?_
    have hblank : Blank (c :: v) := ⟨List.cons_ne_nil c v, fun d hd =>
      hbs.blank d (hsplit ▸ List.mem_append_right u hd)⟩
    rw [matchAt?_eq_none, run_spaced, run_blanks hblank hrest rfl, run_clause_none hnone]
  · exact turns_of_chars (P := fun c => isBlank c = true) (fun hc => matchAt?_clause_blank hc)
      hbs.blank

end

end Existence

/-! ### Both passes over a text -/

/-- Every existence clause stands behind white space. -/
def Existence.Spaced (t : Text) : Prop :=
  ∀ u cl v, t = u ++ (cl ++ v) → Existence cl → u.getLast?.any isBlank = true

theorem Existence.Spaced.none {t : Text} (h : Existence.Spaced t) :
    ∀ cl rest, t = cl ++ rest → ¬ Existence cl :=
  fun cl rest hsplit hcl => absurd (h [] cl rest hsplit hcl) Bool.false_ne_true

theorem Existence.Spaced.of_append {p t : Text} (h : Existence.Spaced (p ++ t))
    (hnone : ∀ cl rest, t = cl ++ rest → ¬ Existence cl) : Existence.Spaced t := by
  intro u cl v hsplit hcl
  have hblank := h (p ++ u) cl v (by rw [hsplit, List.append_assoc]) hcl
  obtain rfl | ⟨u, d, rfl⟩ := List.eq_nil_or_concat u
  · exact absurd hcl (hnone cl v hsplit)
  · rw [List.concat_eq_append, List.getLast?_concat]
    rwa [List.concat_eq_append, ← List.append_assoc, List.getLast?_concat] at hblank

theorem Existence.Spaced.behind {p t : Text} {d : Char} (hd : isBlank d = false)
    (h : Existence.Spaced (p ++ [d] ++ t)) : Existence.Spaced t := by
  refine h.of_append fun cl rest hsplit hcl => ?_
  have hblank := h (p ++ [d]) cl rest (by rw [hsplit]) hcl
  rw [List.getLast?_concat, Option.any_some, hd] at hblank
  cases hblank

theorem Existence.spaced_iff (t : Text) :
    Spaced t ↔ ∀ i ≤ t.length,
      (Extraction.existenceClause.matchAt? ⟨[], t.drop i⟩).isSome = true →
        (t.take i).getLast?.any isBlank = true := by
  constructor
  · intro h i _ hsome
    obtain ⟨hit, hmatch⟩ := Option.isSome_iff_exists.mp hsome
    obtain ⟨a, hrun, _⟩ := matchAt?_eq_some hmatch
    obtain ⟨cl, rest, hsplit, hcl⟩ := of_run hrun
    have hdrop : t.drop i = cl ++ rest := hsplit
    exact h (t.take i) cl rest (by rw [← hdrop, List.take_append_drop]) hcl
  · rintro h u cl v rfl hcl
    have hlast := h u.length (by simp)
    rw [List.drop_left, List.take_left, matchAt?, run_clause_of_reads hcl rfl] at hlast
    exact hlast rfl

instance : DecidablePred Existence.Spaced :=
  fun t => decidable_of_iff' _ (Existence.spaced_iff t)

/-- A text, the text with a space for each existence clause and the white space in front of it, and
the text without the clauses alone. -/
inductive Cleared : Text → Text → Text → Prop where
  | nil : Cleared [] [] []
  | other {c : Char} {t s s' : Text} (hc : isBlank c = false)
      (hnone : ∀ cl rest, c :: t = cl ++ rest → ¬ Existence cl) (h : Cleared t s s') :
      Cleared (c :: t) (c :: s) (c :: s')
  | run {bs t s s' : Text} (hbs : Blank bs) (ht : ∀ c, t.head? = some c → isBlank c = false)
      (hnone : ∀ cl rest, t = cl ++ rest → ¬ Existence cl) (h : Cleared t s s') :
      Cleared (bs ++ t) (bs ++ s) (bs ++ s')
  | clause {bs cl t s s' : Text} (hbs : Blank bs) (hcl : Existence cl) (h : Cleared t s s') :
      Cleared (bs ++ (cl ++ t)) (' ' :: s) (bs ++ s')

theorem Existence.Spaced.cleared {t : Text} (h : Spaced t) : ∃ s s', Cleared t s s' := by
  induction hlength : t.length using Nat.strong_induction_on generalizing t with
  | _ n ih =>
  cases t with
  | nil => exact ⟨[], [], .nil⟩
  | cons c rest =>
      cases hc : isBlank c with
      | false =>
          obtain ⟨s, s', hcleared⟩ :=
            ih rest.length (by simp [← hlength]) (h.behind (p := []) hc) rfl
          exact ⟨c :: s, c :: s', .other hc h.none hcleared⟩
      | true =>
          obtain ⟨bs, t, hsplit, hbs, ht⟩ := Text.split_blank hc rest
          have hshort : bs.length + t.length = n := by
            rw [← hlength, hsplit, List.length_append]
          have hsome := List.length_pos_iff.mpr hbs.nonempty
          rw [hsplit] at h ⊢
          by_cases hclause : ∃ cl v, t = cl ++ v ∧ Existence cl
          · obtain ⟨cl, v, rfl, hcl⟩ := hclause
            obtain ⟨u, d, hlast, hd⟩ := hcl.last
            have hrest : Spaced v := by
              rw [hlast, ← List.append_assoc, ← List.append_assoc] at h
              exact h.behind hd
            rw [List.length_append] at hshort
            obtain ⟨s, s', hcleared⟩ := ih v.length (by omega) hrest rfl
            exact ⟨' ' :: s, bs ++ s', .clause hbs hcl hcleared⟩
          · have hnone : ∀ cl v, t = cl ++ v → ¬ Existence cl :=
              fun cl v hv hcl => hclause ⟨cl, v, hv, hcl⟩
            obtain ⟨s, s', hcleared⟩ := ih t.length (by omega) (h.of_append hnone) rfl
            exact ⟨bs ++ s, bs ++ s', .run hbs ht hnone hcleared⟩

namespace Cleared

variable {t s s' : Text}

theorem turns (h : Cleared t s s') (before : Text) :
    Turns Classification.existenceClause [' '] before t [] s ∧
      Turns Extraction.existenceClause [] before t [] s' := by
  induction h generalizing before with
  | nil => exact ⟨turns_nil _ _ _ _, turns_nil _ _ _ _⟩
  | other hc hnone h ih =>
      rename_i c t s s'
      obtain ⟨hs, hs'⟩ := ih (c :: before)
      refine ⟨.cons (Existence.matchAt?_spaced_none hc) hs, .cons ?_ hs'⟩
      exact Existence.matchAt?_clause_none (by rwa [List.append_nil]) before
  | run hbs ht hnone h ih =>
      rename_i bs t s s'
      have ht' : ∀ c, (t ++ []).head? = some c → isBlank c = false := by rwa [List.append_nil]
      have hnone' : ∀ cl v, t ++ [] = cl ++ v → ¬ Existence cl := by rwa [List.append_nil]
      have hkeep := Existence.turns_blank hbs before ht' hnone'
      obtain ⟨hs, hs'⟩ := ih (bs.reverse ++ before)
      exact ⟨hkeep.1.append hs, hkeep.2.append hs'⟩
  | clause hbs hcl h ih =>
      rename_i bs cl t s s'
      obtain ⟨hs, hs'⟩ := ih ((bs ++ cl).reverse ++ before)
      rw [← List.append_assoc]
      exact ⟨(Existence.turns_clause hbs before hcl).1.append hs,
        (Existence.turns_clause hbs before hcl).2.append hs'⟩

theorem replaceAll (h : Cleared t s s') :
    Classification.existenceClause.replaceAll (fun _ => [' ']) t = s ∧
      Extraction.existenceClause.removeAll t = s' :=
  ⟨(h.turns []).1.replaceAll, (h.turns []).2.replaceAll⟩

theorem respaced (h : Cleared t s s') : Respaced s s' := by
  induction h with
  | nil => exact .nil
  | other hc hnone h ih => exact .other hc ih
  | run hbs ht hnone h ih => exact .run hbs hbs ih
  | clause hbs hcl h ih => exact .run Text.blank_space hbs ih

/-- A word without an I opens no clause. -/
theorem word {w : Text} (hw : ∀ c ∈ w, isBlank c = false ∧ foldLetter c ≠ 'I')
    (h : Cleared t s s') : Cleared (w ++ t) (w ++ s) (w ++ s') := by
  induction w with
  | nil => exact h
  | cons c w ih =>
      obtain ⟨hblank, hfirst⟩ := hw c List.mem_cons_self
      exact .other hblank (Existence.none_of_first hfirst)
        (ih fun d hd => hw d (List.mem_cons_of_mem c hd))

/-- A word at the end of the text is in no clause. -/
theorem final {w : Text} (hw : ∀ c ∈ w, isBlank c = false) : Cleared w w w := by
  induction w with
  | nil => exact .nil
  | cons c w ih =>
      exact .other (hw c List.mem_cons_self) (Existence.none_of_nonblank hw)
        (ih fun d hd => hw d (List.mem_cons_of_mem c hd))

theorem starts_of_starts (h : Cleared t s s') {w : Text} (hw : ∀ c ∈ w, isBlank c = false)
    (hstart : w <+: s ∨ w <+: s') : w <+: t := by
  induction h generalizing w with
  | nil => exact hstart.elim id id
  | other hc hnone h ih =>
      cases w with
      | nil => exact List.nil_prefix
      | cons d w =>
          rw [List.cons_prefix_cons, List.cons_prefix_cons, ← and_or_left] at hstart
          exact List.cons_prefix_cons.mpr
            ⟨hstart.1, ih (fun d' hd => hw d' (List.mem_cons_of_mem d hd)) hstart.2⟩
  | run hbs ht hnone h ih =>
      obtain rfl : w = [] := hstart.elim (Text.eq_nil_of_prefix_blank hw hbs)
        (Text.eq_nil_of_prefix_blank hw hbs)
      exact List.nil_prefix
  | clause hbs hcl h ih =>
      obtain rfl : w = [] := hstart.elim (Text.eq_nil_of_prefix_blank hw Text.blank_space)
        (Text.eq_nil_of_prefix_blank hw hbs)
      exact List.nil_prefix

/-- The passes put nothing together that white space was not within. -/
theorem infix_of_infix (h : Cleared t s s') {w : Text} (hw : ∀ c ∈ w, isBlank c = false)
    (hwithin : w <:+: s ∨ w <:+: s') : w <:+: t := by
  induction h with
  | nil => exact hwithin.elim id id
  | other hc hnone h ih =>
      rw [List.infix_cons_iff, List.infix_cons_iff] at hwithin
      rw [List.infix_cons_iff]
      obtain (hstart | hwithin) | hstart | hwithin := hwithin
      · exact Or.inl ((Cleared.other hc hnone h).starts_of_starts hw (Or.inl hstart))
      · exact Or.inr (ih (Or.inl hwithin))
      · exact Or.inl ((Cleared.other hc hnone h).starts_of_starts hw (Or.inr hstart))
      · exact Or.inr (ih (Or.inr hwithin))
  | run hbs ht hnone h ih =>
      have hrest := ih (hwithin.imp (Text.infix_of_blank hw hbs.blank)
        (Text.infix_of_blank hw hbs.blank))
      exact hrest.trans (List.suffix_append _ _).isInfix
  | clause hbs hcl h ih =>
      have hrest := ih (hwithin.imp (Text.infix_of_blank hw Text.blank_space.blank)
        (Text.infix_of_blank hw hbs.blank))
      exact hrest.trans ((List.suffix_append _ _).trans (List.suffix_append _ _)).isInfix

end Cleared
end QueryDigest
