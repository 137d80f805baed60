import Mathlib.Data.List.Infix
import QueryDigest.Proofs.Statement.ExistenceClauses
import QueryDigest.Proofs.Statement.NamedObjects
import QueryDigest.Proofs.Statement.Openings

/-!
The object of a data definition. Its name is looked for once for the words of the statement and once
for its tables, in texts that may differ in white space. White space is no part of a name, so that
both searches find the same one, unless the statement is about a database or defines a table by a
query.
-/

namespace QueryDigest

open Pattern
open Text (Blank Respaced)
open Unicode (foldLetter isBlank isWord)

/-! ### Names in respaced texts -/

section

variable {ks : List Text} (hks : Apart ks)

include hks

theorem NamesAt.respaced {s t rest : Text} (h : NamesAt ks s rest) (hspaced : Respaced s t) :
    ∃ rest', NamesAt ks t rest' ∧ Respaced rest rest' := by
  obtain ⟨k, bs, rfl, hk, hbs, hrest⟩ := h
  obtain ⟨t', rfl, ht'⟩ := hspaced.of_append (nonblank_of_upper (hks _ hk).2.2.1)
  obtain ⟨bs', hbs', hsplit, hrest'⟩ := ht'.of_blank hbs
  have hdrop : rest.dropWhile isBlank = rest := by
    cases rest with
    | nil => rfl
    | cons c rest => exact List.dropWhile_cons_of_neg (by simp [hrest c rfl])
  rw [hdrop] at hrest'
  exact ⟨_, ⟨k, bs', by rw [← hsplit], hk, hbs', Text.head?_dropWhile_blank t'⟩, hrest'⟩

theorem matchAt?_respaced {s t : Text} (h : Respaced s t) (hs : Identifier.backquote ∉ s)
    (ht : Identifier.backquote ∉ t) (before before' : Text) :
    ((nameBehind ks).matchAt? ⟨before, s⟩).map (·.group 0) =
      ((nameBehind ks).matchAt? ⟨before', t⟩).map (·.group 0) := by
  by_cases hnames : ∃ rest, NamesAt ks s rest
  · obtain ⟨rest, hnames⟩ := hnames
    obtain ⟨rest', hnames', hrest⟩ := hnames.respaced hks h
    rw [matchAt?_nameBehind hks hnames hs, matchAt?_nameBehind hks hnames' ht,
      Identifier.bare_respaced hrest]
  · have hnone : (nameBehind ks).matchAt? ⟨before, s⟩ = none :=
      Option.eq_none_iff_forall_ne_some.mpr fun hit hmatch => hnames (namesAt_of_match hks hmatch)
    have hnone' : (nameBehind ks).matchAt? ⟨before', t⟩ = none := by
      refine Option.eq_none_iff_forall_ne_some.mpr fun hit hmatch => hnames ?_
      obtain ⟨rest, hnames'⟩ := namesAt_of_match hks hmatch
      obtain ⟨rest', hnames, _⟩ := hnames'.respaced hks h.symm
      exact ⟨rest', hnames⟩
    rw [hnone, hnone']

theorem findBetween_blank {bs : Text} (hbs : Blank bs) (before rest : Text) :
    (nameBehind ks).findBetween before (bs ++ rest) =
      (nameBehind ks).findBetween (bs.reverse ++ before) rest := by
  refine findBetween_skip before rest fun u c v hsplit =>
    Option.eq_none_iff_forall_ne_some.mpr fun hit hmatch => ?_
  obtain ⟨rest', k, bs', hk, hfold, _, _⟩ := namesAt_of_match hks hmatch
  obtain ⟨_, hne, hupper, _⟩ := hks _ hfold
  have hfirst := (nonblank_of_fold rfl hne hupper).1 _ c (by rw [← hk]; rfl)
  rw [hbs.blank c (hsplit ▸ List.mem_append_right u List.mem_cons_self)] at hfirst
  cases hfirst

/-- Texts that differ in white space have the same name first. -/
theorem findBetween_respaced {s t : Text} (h : Respaced s t) (hs : Identifier.backquote ∉ s)
    (ht : Identifier.backquote ∉ t) (before before' : Text) :
    ((nameBehind ks).findBetween before s).map (·.group 0) =
      ((nameBehind ks).findBetween before' t).map (·.group 0) := by
  induction h generalizing before before' with
  | nil => exact matchAt?_respaced hks .nil hs ht before before'
  | other hc h ih =>
      have hfirst := matchAt?_respaced hks (.other hc h) hs ht before before'
      rw [List.mem_cons, not_or] at hs ht
      rw [findBetween_cons, findBetween_cons, Option.map_or, Option.map_or, hfirst, ih hs.2 ht.2]
  | run hbs hbs' h ih =>
      rw [List.mem_append, not_or] at hs ht
      rw [findBetween_blank hks hbs, findBetween_blank hks hbs', ih hs.2 ht.2]

theorem name_ne_nil {t n : Text} (hquote : Identifier.backquote ∉ t)
    (h : ((nameBehind ks).find t).map (·.group 0) = some n) : n ≠ [] := by
  obtain ⟨hit, hfind, rfl⟩ := Option.map_eq_some_iff.mp h
  obtain ⟨u, v, rfl, hmatch⟩ := findBetween_some hfind
  obtain ⟨rest, hnames⟩ := namesAt_of_match hks hmatch
  have hquote' : Identifier.backquote ∉ v := fun hmem => hquote (List.mem_append_right u hmem)
  have hgroup := (congrArg (Option.map (·.group 0)) hmatch).symm.trans
    (matchAt?_nameBehind hks hnames hquote' _)
  rw [Option.map_some] at hgroup
  split at hgroup
  · cases hgroup
  · rename_i hname
    rw [Option.some.inj hgroup]
    exact hname

end

/-! ### Keywords that do not occur -/

namespace Extraction

section

variable {t : Text} (hdatabase : ¬ "DATABASE".toList <:+: t.map foldLetter)

include hdatabase

theorem databaseBehind_of_not_infix (verb : DefinitionVerb) :
    (databaseBehind verb).occursIn t = false := by
  refine Bool.eq_false_iff.mpr fun hoccurs => hdatabase ?_
  obtain ⟨hit, hfind⟩ := Option.isSome_iff_exists.mp hoccurs
  have hwithin := infix_of_find hfind
  exact (List.suffix_cons ' ' "DATABASE".toList).isInfix.trans hwithin

/-- Without DATABASE the only kind of object that a name can stand behind is TABLE. -/
theorem findBetween_namedObject {before v : Text} (hv : v <:+ t) :
    Classification.namedObject.findBetween before v = tableName.findBetween before v := by
  have hmatch : ∀ {before v : Text}, v <:+ t →
      Classification.namedObject.matchAt? ⟨before, v⟩ = tableName.matchAt? ⟨before, v⟩ := by
    intro before v hv
    have hnone : ∀ onward, (keyword "DATABASE".toList).run (.start ⟨before, v⟩) onward = none := by
      refine fun onward => Option.eq_none_iff_forall_ne_some.mpr fun b hrun => hdatabase ?_
      obtain ⟨w, rest, hsplit, hw, _⟩ := run_keyword_eq_some hrun
      have hstart : w <+: v := ⟨rest, hsplit.symm⟩
      rw [← show w.map foldLetter = "DATABASE".toList from hw]
      exact (hstart.isInfix.trans hv.isInfix).map foldLetter
    rw [matchAt?, matchAt?, Classification.namedObject, tableName, run_append, run_append]
    change Option.map _ (((keyword "TABLE".toList) ||| keyword "DATABASE".toList).run
      (.start ⟨before, v⟩) _) = _
    rw [run_or, hnone, Option.or_none]
    rfl
  induction v generalizing before with
  | nil => exact hmatch hv
  | cons c rest ih =>
      rw [findBetween_cons, findBetween_cons, hmatch hv, ih ((List.suffix_cons c rest).trans hv)]

end

theorem definingQuery?_of_not_infix {t : Text} (h : ¬ "SELECT".toList <:+: t.map foldLetter) :
    definingQuery? t = none := by
  refine if_neg fun hoccurs => h ?_
  obtain ⟨hit, hfind⟩ := Option.isSome_iff_exists.mp hoccurs
  exact infix_of_find hfind

end Extraction

/-! ### The object of a definition -/

theorem Cleared.not_infix {t s s' k : Text} (h : Cleared t s s')
    (hupper : k.all Char.isUpper = true) (hnone : ¬ k <:+: t.map foldLetter) :
    ¬ k <:+: s.map foldLetter ∧ ¬ k <:+: s'.map foldLetter := by
  rw [← not_or]
  intro hwithin
  obtain ⟨w, hw, rfl⟩ : ∃ w, (w <:+: s ∨ w <:+: s') ∧ k = w.map foldLetter := by
    obtain hwithin | hwithin := hwithin
    · obtain ⟨w, hw, hk⟩ := List.infix_map_iff.mp hwithin
      exact ⟨w, Or.inl hw, hk⟩
    · obtain ⟨w, hw, hk⟩ := List.infix_map_iff.mp hwithin
      exact ⟨w, Or.inr hw, hk⟩
  exact hnone ((h.infix_of_infix (nonblank_of_upper hupper) hw).map foldLetter)

theorem toList_eq_of_nonempty (name : Option Text) (h : ∀ n, name = some n → n ≠ []) :
    name.toList.eraseDups = if (name.getD []).isEmpty then [] else [name.getD []] := by
  cases name with
  | none => rfl
  | some n => rw [Option.getD_some, if_neg (by simpa using h n rfl)]; rfl

/-- A data definition without comments, without back-quotes and without the words DATABASE and
SELECT has one table, which is the object that its words name, or none where they name none. -/
theorem tablesOf_eq_object {verb : DefinitionVerb} {t : Text}
    (hverb : DefinitionVerb.ofStatement? t = some verb) (hunmarked : Comment.Unmarked t)
    (hquote : Identifier.backquote ∉ t) (hdatabase : ¬ "DATABASE".toList <:+: t.map foldLetter)
    (hselect : ¬ "SELECT".toList <:+: t.map foldLetter) (hspaced : Existence.Spaced t) :
    tablesOf t = if (Classification.ofStatement t).object.isEmpty then []
      else [(Classification.ofStatement t).object] := by
  obtain ⟨s, s', hcleared⟩ := hspaced.cleared
  obtain ⟨hs, hs'⟩ := hcleared.replaceAll
  obtain ⟨hdatabase, hdatabase'⟩ := hcleared.not_infix (by decide) hdatabase
  have hselect' := (hcleared.not_infix (by decide) hselect).2
  have hquotes : Identifier.backquote ∉ s ∧ Identifier.backquote ∉ s' := by
    constructor
    · intro hmem
      rw [← hs] at hmem
      exact (mem_replaceAll_const hmem).elim hquote (by decide)
    · intro hmem
      rw [← hs'] at hmem
      exact (mem_replaceAll_const hmem).elim hquote List.not_mem_nil
  have hks : Apart ["TABLE".toList] := by decide
  have hobject : (Classification.ofStatement t).object =
      ((Extraction.tableName.find s').map (·.group 0)).getD [] := by
    rw [Classification.ofStatement_of_definition hverb hunmarked hs]
    change ((Classification.namedObject.findBetween [] s).map _).getD [] = _
    rw [Extraction.findBetween_namedObject hdatabase (List.suffix_refl s),
      tableName_eq, findBetween_respaced hks hcleared.respaced hquotes.1 hquotes.2 [] []]
    rfl
  have htables : (Extraction.ofStatement t).tables =
      ((Extraction.tableName.find s').map (·.group 0)).toList := by
    rw [Extraction.ofStatement, hverb]
    simp only [hs', Extraction.databaseBehind_of_not_infix hdatabase', Bool.false_eq_true,
      if_false, Extraction.definingQuery?_of_not_infix hselect']
    rfl
  rw [hobject, tablesOf, htables]
  exact toList_eq_of_nonempty _ fun n hn => name_ne_nil hks hquotes.2 hn

/-- White space of several kinds around a clause, and a clause behind the name. -/
theorem tablesOf_eq_object_alter :
    let t := "alter table\tIF\n EXISTS  shop.orders add column if not exists n int".toList
    (Classification.ofStatement t).object = "shop.orders".toList ∧
      tablesOf t = ["shop.orders".toList] := by
  have hobject : (Classification.ofStatement
      "alter table\tIF\n EXISTS  shop.orders add column if not exists n int".toList).object =
        "shop.orders".toList := by
    decide +kernel
  have hverb : DefinitionVerb.ofStatement?
      "alter table\tIF\n EXISTS  shop.orders add column if not exists n int".toList =
        some .alter := by
    decide +kernel
  have htables := tablesOf_eq_object hverb (by decide +kernel) (by decide +kernel)
    (by decide +kernel) (by decide +kernel) (by decide +kernel)
  rw [hobject] at htables
  exact ⟨hobject, htables⟩

end QueryDigest
