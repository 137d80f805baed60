import QueryDigest.Proofs.Pattern.Runs
import QueryDigest.Statement.Classification
import QueryDigest.Statement.Extraction

/-!
Names behind the kind of an object. A name without back-quotes is read off the text that it stands
in: a word, and behind it perhaps a dot and another word. What a search for such a name finds
depends on the words that it may stand behind and on the text behind the white space.
-/

namespace QueryDigest

open Pattern
open Text (Blank Respaced)
open Unicode (foldLetter isBlank isWord)

/-! ### Names without back-quotes -/

namespace Identifier

/-- The dot and the word behind it that a text starts with; empty where it does not. -/
def dotted (t : Text) : Text :=
  if t.head? = some '.' ∧ t.tail.takeWhile isWord ≠ [] then '.' :: t.tail.takeWhile isWord else []

/-- The name that a text without back-quotes starts with; empty where there is none. -/
def bare (t : Text) : Text :=
  if t.takeWhile isWord = [] then [] else t.takeWhile isWord ++ dotted (t.dropWhile isWord)

theorem bare_word {w : Text} (hw : ∀ c ∈ w, isWord c = true) : bare w = w := by
  have hstop : ∀ c, ([] : Text).head? = some c → isWord c = false := fun c hc => nomatch hc
  obtain ⟨htake, hdrop⟩ := Text.span_append hw hstop
  rw [List.append_nil] at htake hdrop
  have hdotted : dotted [] = [] := if_neg fun h => nomatch h.1
  rw [bare, htake, hdrop, hdotted, List.append_nil]
  split
  · rename_i hnil
    exact hnil.symm
  · rfl

theorem dotted_starts (t : Text) : dotted t <+: t := by
  rw [dotted]
  split
  · rename_i h
    obtain ⟨rest, rfl⟩ := List.head?_eq_some_iff.mp h.1
    exact List.cons_prefix_cons.mpr ⟨rfl, List.takeWhile_prefix isWord⟩
  · exact List.nil_prefix

theorem bare_starts (t : Text) : bare t <+: t := by
  rw [bare]
  split
  · exact List.nil_prefix
  · have hbehind := (List.prefix_append_right_inj (t.takeWhile isWord)).mpr
      (dotted_starts (t.dropWhile isWord))
    rwa [List.takeWhile_append_dropWhile] at hbehind

theorem run_simple {a : Attempt} (h : backquote ∉ a.after) (onward : Onward) :
    simple.run a onward = word.run a onward := by
  have hquoted : quoted.run a onward = none := by
    rw [quoted, run_append, run_append]
    exact run_char_none (fun hhead => h (List.mem_of_head? hhead)) _
  rw [simple, run_or, hquoted, Option.none_or]

section

variable {a : Attempt} (h : backquote ∉ a.after) (onward : Onward)
  (honward : ∀ b, onward b ≠ none)

include h honward

theorem run_dotted : ∃ rest, (Pattern.optional (char '.' ++ simple)).run a onward =
    onward (a.take (dotted a.after) rest) := by
  rw [Pattern.optional, run_or, run_append, dotted]
  by_cases hdot : a.after.head? = some '.'
  · obtain ⟨rest, hafter⟩ := List.head?_eq_some_iff.mp hdot
    have hrest : backquote ∉ rest := fun hmem => h (hafter ▸ List.mem_cons_of_mem _ hmem)
    rw [run_char hafter, run_simple hrest, word, run_someOf_eq, Attempt.take_after]
    by_cases hword : rest.takeWhile isWord = []
    · rw [if_pos hword, if_neg (by simp [hafter, hword])]
      exact ⟨a.after, congrArg onward (Attempt.take_nil a).symm⟩
    · rw [if_neg hword, if_pos ⟨hdot, by rwa [hafter]⟩, hafter, Attempt.take_take]
      obtain ⟨b, hb⟩ := Option.ne_none_iff_exists'.mp (honward _)
      exact ⟨rest.dropWhile isWord, by rw [List.tail_cons, hb, Option.some_or, ← hb]; rfl⟩
  · rw [run_char_none hdot, Option.none_or, if_neg fun h => hdot h.1]
    exact ⟨a.after, congrArg onward (Attempt.take_nil a).symm⟩

theorem run_bare (hname : bare a.after ≠ []) :
    ∃ rest, pattern.run a onward = onward (a.take (bare a.after) rest) := by
  have hword : a.after.takeWhile isWord ≠ [] := fun hnil => hname (if_pos hnil)
  have hrest : backquote ∉ a.after.dropWhile isWord :=
    fun hmem => h ((List.dropWhile_sublist isWord).subset hmem)
  rw [pattern, run_append, run_simple h, word, run_someOf_eq, if_neg hword, bare, if_neg hword]
  obtain ⟨rest, hrun⟩ := run_dotted
    (a := a.take (a.after.takeWhile isWord) (a.after.dropWhile isWord)) hrest onward honward
  exact ⟨rest, by rw [hrun, Attempt.take_take]; rfl⟩

end

theorem run_bare_none {a : Attempt} (h : backquote ∉ a.after) (hname : bare a.after = [])
    (onward : Onward) : pattern.run a onward = none := by
  have hword : a.after.takeWhile isWord = [] := by
    by_contra hne
    rw [bare, if_neg hne] at hname
    exact hne (List.append_eq_nil_iff.mp hname).1
  rw [pattern, run_append, run_simple h, word, run_someOf_eq, if_pos hword]

/-- White space is no part of a name without back-quotes, nor is what stands behind it. -/
theorem bare_respaced {s t : Text} (h : Respaced s t) : bare s = bare t := by
  have hclass : ∀ c, isBlank c = true → isWord c = false := fun _ => Unicode.isWord_of_isBlank
  have hdotted : ∀ {s t : Text}, Respaced s t → dotted s = dotted t := by
    intro s t h
    cases h with
    | nil => rfl
    | other hc h => rw [dotted, dotted, List.tail_cons, List.tail_cons, (h.span hclass).1]; rfl
    | run hbs hbs' h =>
        have hnone : ∀ {bs : Text}, Blank bs → ∀ u, dotted (bs ++ u) = [] := by
          intro bs hbs u
          obtain ⟨b, more, hhead, hb⟩ := hbs.head u
          rw [hhead, dotted, if_neg]
          rintro ⟨⟨⟩, _⟩
          exact absurd hb (by decide)
        rw [hnone hbs, hnone hbs']
  obtain ⟨htake, hdrop⟩ := h.span hclass
  rw [bare, bare, htake, hdotted hdrop]

end Identifier

/-! ### Names behind keywords -/

/-- A name behind one of some keywords, which is the group. -/
def nameBehind (ks : List Text) : Pattern :=
  keywords ks ++ blanks ++ .group Identifier.pattern

theorem namedObject_eq :
    Classification.namedObject = nameBehind ["TABLE".toList, "DATABASE".toList] :=
  rfl

theorem tableName_eq : Extraction.tableName = nameBehind ["TABLE".toList] :=
  rfl

/-- Keywords in capitals none of which starts like another. -/
def Apart (ks : List Text) : Prop :=
  ∀ k ∈ ks, k.map foldLetter = k ∧ k ≠ [] ∧ k.all Char.isUpper = true ∧
    ∀ k' ∈ ks, k' <+: k ∨ k <+: k' → k' = k

instance : DecidablePred Apart :=
  fun ks => inferInstanceAs (Decidable (∀ k ∈ ks, _))

theorem Apart.word {ks : List Text} (hks : Apart ks) {w : Text} (hw : w.map foldLetter ∈ ks) :
    w ≠ [] ∧ ∀ c ∈ w, isWord c = true := by
  obtain ⟨hfold, hne, hupper, _⟩ := hks _ hw
  exact Text.word_of_fold hfold.symm hne (by rwa [hfold])

/-- A text reads one of some keywords and some white space in front of the rest. -/
def NamesAt (ks : List Text) (t rest : Text) : Prop :=
  ∃ k bs, t = k ++ (bs ++ rest) ∧ k.map foldLetter ∈ ks ∧ Blank bs ∧
    ∀ c, rest.head? = some c → isBlank c = false

section

variable {ks : List Text} (hks : Apart ks)

include hks

theorem namesAt_of_match {before t : Text} {h : Hit}
    (hmatch : (nameBehind ks).matchAt? ⟨before, t⟩ = some h) : ∃ rest, NamesAt ks t rest := by
  obtain ⟨a, hrun, _⟩ := matchAt?_eq_some hmatch
  rw [nameBehind, run_append, run_append] at hrun
  obtain ⟨k', hk', k, r, hk, hfold, hrun⟩ := run_keywords_eq_some hrun
  obtain ⟨bs, rest, hbs, hblank, hrest, _⟩ := run_blanks_eq_some hrun
  obtain rfl : t = k ++ r := hk
  obtain rfl : r = bs ++ rest := hbs
  rw [(hks k' hk').1] at hfold
  exact ⟨rest, k, bs, rfl, hfold ▸ hk', hblank, hrest⟩

theorem matchAt?_nameBehind {t rest : Text} (h : NamesAt ks t rest)
    (hquote : Identifier.backquote ∉ t) (before : Text) :
    ((nameBehind ks).matchAt? ⟨before, t⟩).map (·.group 0) =
      if Identifier.bare rest = [] then none else some (Identifier.bare rest) := by
  obtain ⟨k, bs, rfl, hk, hbs, hrest⟩ := h
  have hquote' : Identifier.backquote ∉ rest := fun hmem => hquote (by simp [hmem])
  have hfold : k.map foldLetter = (k.map foldLetter).map foldLetter := (hks _ hk).1.symm
  have hapart : ∀ k' ∈ ks, k'.map foldLetter <+: (k.map foldLetter).map foldLetter ∨
      (k.map foldLetter).map foldLetter <+: k'.map foldLetter → k' = k.map foldLetter := by
    intro k' hk' hstart
    rw [← hfold, (hks k' hk').1] at hstart
    exact (hks _ hk).2.2.2 k' hk' hstart
  rw [matchAt?, nameBehind, run_append, run_append, run_keywords hk hfold hapart rfl,
    run_blanks hbs hrest rfl, run_group]
  split
  · rename_i hname
    rw [Identifier.run_bare_none hquote' hname]
    rfl
  · rename_i hname
    obtain ⟨more, hrun⟩ := Identifier.run_bare (a := ((Attempt.mk before _ 0 []).take k
      (bs ++ rest)).take bs rest) hquote' (fun b => some (b.close _))
      (fun b => Option.some_ne_none _) hname
    rw [hrun]
    have hgroup := (List.prefix_iff_eq_take.mp (Identifier.bare_starts rest)).symm
    simp [Hit.group, Attempt.close, hgroup]

end

end QueryDigest
