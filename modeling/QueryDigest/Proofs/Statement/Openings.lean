import QueryDigest.Proofs.Statement.Comments
import QueryDigest.Proofs.Statement.Fingerprints
import QueryDigest.Proofs.Text.Respacing

/-!
The keyword that a statement opens with. Every rule of the cascade but the last one asks for a
keyword at the start, and of two keywords at one start one reads like the start of the other, so
that a statement with a keyword of its own is claimed by the rule for it.
-/

namespace QueryDigest

open Pattern
open Unicode (foldLetter isBlank)

/-- A text starts with a keyword, behind white space and in any case. -/
def OpensWith (k t : Text) : Prop :=
  ∃ w rest, t.dropWhile isBlank = w ++ rest ∧ w.map foldLetter = k.map foldLetter

theorem OpensWith.apart {k k' t : Text} (h : OpensWith k t) (h' : OpensWith k' t) :
    k.map foldLetter <+: k'.map foldLetter ∨ k'.map foldLetter <+: k.map foldLetter := by
  obtain ⟨w, rest, ht, hw⟩ := h
  obtain ⟨w', rest', ht', hw'⟩ := h'
  rw [← hw, ← hw']
  exact fold_starts ht ht'

theorem OpensWith.of_append {k k' t : Text} (h : OpensWith (k ++ k') t) : OpensWith k t := by
  obtain ⟨w, rest, ht, hw⟩ := h
  rw [List.map_append] at hw
  obtain ⟨u, v, rfl, hu, _⟩ := List.map_eq_append_iff.mp hw
  exact ⟨u, v ++ rest, by rw [ht, List.append_assoc], hu⟩

theorem OpensWith.split {k t : Text} (h : OpensWith k t) :
    ∃ lead w rest, t = lead ++ (w ++ rest) ∧ (∀ c ∈ lead, isBlank c = true) ∧
      w.map foldLetter = k.map foldLetter := by
  obtain ⟨w, rest, ht, hw⟩ := h
  refine ⟨t.takeWhile isBlank, w, rest, ?_, fun c hc => List.mem_takeWhile_imp hc, hw⟩
  rw [← ht, List.takeWhile_append_dropWhile]

theorem opensWith_of_lead {k lead w rest : Text} (hlead : ∀ c ∈ lead, isBlank c = true)
    (hw : w.map foldLetter = k.map foldLetter)
    (hhead : ∀ c, (w ++ rest).head? = some c → isBlank c = false) :
    OpensWith k (lead ++ (w ++ rest)) := by
  refine ⟨w, rest, ?_, hw⟩
  rw [Text.dropWhile_blank hlead]
  cases hrest : w ++ rest with
  | nil => rfl
  | cons c more => exact List.dropWhile_cons_of_neg (by simp [hhead c (by rw [hrest]; rfl)])

theorem DefinitionVerb.Opens.opensWith {verb : DefinitionVerb} {t : Text} (h : verb.Opens t) :
    OpensWith verb.keyword t := by
  obtain ⟨w, rest, ht, hw, _⟩ := h
  exact ⟨w, rest, ht, hw⟩

namespace Pattern

/-- A pattern that asks for a keyword at the start of the text first. -/
def Opening (k : Text) (p : Pattern) : Prop :=
  ∀ (a : Attempt) (onward : Onward),
    ∃ onward', p.run a onward = (textStart ++ maybeBlanks ++ keyword k).run a onward'

theorem opening_keyword (k : Text) : Opening k (textStart ++ maybeBlanks ++ keyword k) :=
  fun _ onward => ⟨onward, rfl⟩

theorem Opening.append {k : Text} {p : Pattern} (hp : Opening k p) (q : Pattern) :
    Opening k (p ++ q) :=
  fun a onward => hp a fun b => q.run b onward

theorem Opening.anchored {k : Text} {p : Pattern} (hp : Opening k p) : p.Anchored := by
  intro a onward h
  obtain ⟨onward', hrun⟩ := hp a onward
  rw [hrun]
  exact ((anchored_textStart.append maybeBlanks).append _) a onward' h

theorem Opening.opensWith {k t : Text} {p : Pattern} (hp : Opening k p) {h : Hit}
    (hfind : p.find t = some h) : OpensWith k t := by
  rw [find_anchored hp.anchored] at hfind
  obtain ⟨a, hrun, _⟩ := matchAt?_eq_some hfind
  obtain ⟨onward', hstart⟩ := hp (.start (.start t)) some
  rw [hstart] at hrun
  exact Classification.leading_keyword hrun

theorem Opening.opensWith_of_occursIn {k t : Text} {p : Pattern} (hp : Opening k p)
    (h : p.occursIn t = true) : OpensWith k t := by
  obtain ⟨hit, hfind⟩ := Option.isSome_iff_exists.mp h
  exact hp.opensWith hfind

theorem occursIn_keyword {k t : Text} (h : OpensWith k t) :
    (textStart ++ maybeBlanks ++ keyword k).occursIn t = true := by
  obtain ⟨w, rest, ht, hw⟩ := h
  rw [occursIn, find_anchored (opening_keyword k).anchored]
  change (((textStart ++ maybeBlanks).run (.start (.start t)) fun b =>
    (keyword k).run b some).map _).isSome = true
  rw [run_leading, run_keyword hw ht]
  rfl

end Pattern

namespace Comment

theorem unclosedFrom_unmarked {t : Text} (ht : ¬ ['/', '*'] <:+: t) {s : Surroundings}
    (hs : s = .plain ∨ ∃ q, s = .quoted q ∨ s = .escaped q) (n : Nat) :
    unclosedFrom s n t = none := by
  induction t generalizing s n with
  | nil => rcases hs with rfl | ⟨q, rfl | rfl⟩ <;> rfl
  | cons c rest ih =>
      have hrest : ¬ ['/', '*'] <:+: rest :=
        fun h => ht (h.trans (List.suffix_cons c rest).isInfix)
      have hopener : ¬ (c = '/' ∧ rest.head? = some '*') := by
        rintro ⟨rfl, hhead⟩
        obtain ⟨more, rfl⟩ := List.head?_eq_some_iff.mp hhead
        exact ht ⟨[], more, rfl⟩
      obtain rfl | ⟨q, rfl | rfl⟩ := hs
      · rw [unclosedFrom, if_neg hopener]
        split
        · exact ih hrest (Or.inr ⟨c, Or.inl rfl⟩) _
        · exact ih hrest (Or.inl rfl) _
      · rw [unclosedFrom]
        split
        · exact ih hrest (Or.inr ⟨q, Or.inr rfl⟩) _
        · split
          · exact ih hrest (Or.inl rfl) _
          · exact ih hrest (Or.inr ⟨q, Or.inl rfl⟩) _
      · exact ih hrest (Or.inr ⟨q, Or.inl rfl⟩) _

theorem replaceAll_unmarked {p : Pattern} (hp : OpensComment p) {t : Text} (ht : Unmarked t)
    (r : Text) : p.replaceAll (fun _ => r) t = t := by
  rw [replaceAll_const, outlineFrom_unmarked hp ht, List.drop_zero, write_map_kept]

theorem unmarked_of_words {t : Text}
    (h : ∀ c ∈ t, Unicode.isWord c = true ∨ isBlank c = true) : Unmarked t := by
  have hmarks : ∀ x ∈ "/-#".toList, ¬ (Unicode.isWord x = true ∨ isBlank x = true) := by
    decide
  have hnot : ∀ x ∈ "/-#".toList, x ∉ t := fun x hx hmem => hmarks x hx (h x hmem)
  exact ⟨fun hblock => hnot '/' (by decide) (hblock.subset List.mem_cons_self),
    fun hline => hnot '-' (by decide) (hline.subset List.mem_cons_self), hnot '#' (by decide)⟩

/-- A text without the openers of comments has nothing to erase. -/
theorem erase_unmarked {t : Text} (ht : Unmarked t) : erase t = t := by
  have hclosed : eraseClosedAndCut t = t := by
    rw [eraseClosedAndCut, removeAll, removeAll, replaceAll_unmarked opensComment_block ht,
      replaceAll_unmarked opensComment_line ht, cutUnclosed,
      unclosedFrom_unmarked ht.1 (Or.inl rfl)]
  obtain herase | ⟨r, herase⟩ := erase_eq t
  · rw [herase, hclosed]
  · rw [herase, hclosed, replaceAll_unmarked opensComment_version ht]

end Comment

namespace Classification

/-- The keywords of the rules for a statement as it stands. -/
def rawKeywords : List Text :=
  ["CALL".toList, "USE".toList, "UNLOCK TABLES".toList, "XA".toList, "LOAD".toList,
    administratorMark]

theorem opening_callOpening : Opening "CALL".toList callOpening :=
  (((opening_keyword _).append _).append _).append _

theorem opening_useOpening : Opening "USE".toList useOpening :=
  (opening_keyword _).append _

theorem opening_transactionOpening : Opening "XA".toList transactionOpening :=
  ((opening_keyword _).append _).append _

theorem opening_showOpening : Opening "SHOW".toList showOpening :=
  (opening_keyword _).append _

theorem opensWith_administratorMark {t : Text} (h : administratorMark <+: t) :
    OpensWith administratorMark t := by
  obtain ⟨rest, rfl⟩ := h
  exact ⟨administratorMark, rest, rfl, rfl⟩

/-- A statement that is claimed as it stands opens with the keyword of a rule. -/
theorem opensWith_of_raw {t : Text} {c : Classification} (h : ofRaw? t = some c) :
    ∃ k ∈ rawKeywords, OpensWith k t := by
  obtain ⟨rule, hrule, hc⟩ := List.exists_of_findSome?_eq_some h
  simp only [List.mem_cons, List.not_mem_nil, or_false] at hrule
  obtain rfl | rfl | rfl | rfl | rfl | rfl := hrule
  · obtain ⟨hit, hfind, _⟩ := Option.map_eq_some_iff.mp hc
    exact ⟨_, by decide, opening_callOpening.opensWith hfind⟩
  · obtain ⟨hoccurs, _⟩ := Option.ite_some_none_eq_some.mp hc
    exact ⟨_, by decide, opening_useOpening.opensWith_of_occursIn hoccurs⟩
  · obtain ⟨hoccurs, _⟩ := Option.ite_some_none_eq_some.mp hc
    exact ⟨_, by decide, (opening_keyword _).opensWith_of_occursIn hoccurs⟩
  · obtain ⟨hit, hfind, _⟩ := Option.map_eq_some_iff.mp hc
    exact ⟨_, by decide, opening_transactionOpening.opensWith hfind⟩
  · obtain ⟨hoccurs, _⟩ := Option.ite_some_none_eq_some.mp hc
    exact ⟨_, by decide, (opening_keyword _).opensWith_of_occursIn hoccurs⟩
  · obtain ⟨hmark, _⟩ := Option.ite_some_none_eq_some.mp hc
    exact ⟨_, by decide, opensWith_administratorMark (List.isPrefixOf_iff_prefix.mp hmark)⟩

theorem ofRaw?_eq_none {k t : Text} (h : OpensWith k t)
    (hapart : ∀ k' ∈ rawKeywords, ¬ k.map foldLetter <+: k'.map foldLetter ∧
      ¬ k'.map foldLetter <+: k.map foldLetter) : ofRaw? t = none := by
  cases hraw : ofRaw? t with
  | none => rfl
  | some c =>
      obtain ⟨k', hk', hopens⟩ := opensWith_of_raw hraw
      obtain hstart | hstart := h.apart hopens
      · exact absurd hstart (hapart k' hk').1
      · exact absurd hstart (hapart k' hk').2

theorem apart_rawKeywords (verb : DefinitionVerb) : ∀ k ∈ rawKeywords,
    ¬ verb.keyword.map foldLetter <+: k.map foldLetter ∧
      ¬ k.map foldLetter <+: verb.keyword.map foldLetter := by
  cases verb <;> decide

/-- A data definition without comments is claimed as one. -/
theorem ofStatement_of_definition {verb : DefinitionVerb} {t plain : Text}
    (h : DefinitionVerb.ofStatement? t = some verb) (hunmarked : Comment.Unmarked t)
    (hplain : existenceClause.replaceAll (fun _ => [' ']) t = plain) :
    ofStatement t = .definition verb (ObjectKind.ofStatement? verb plain)
      (((namedObject.find plain).map (·.group 0)).getD []) := by
  have hopens := (DefinitionVerb.ofStatement?_eq_some.mp h).opensWith
  have hraw : ofRaw? t = none := ofRaw?_eq_none hopens (apart_rawKeywords verb)
  have hshow : showing? t = none := by
    refine if_neg fun hoccurs => ?_
    have hapart := hopens.apart (opening_showOpening.opensWith_of_occursIn hoccurs)
    revert hapart
    cases verb <;> decide
  have hdefinition : definition? t = some (.definition verb (ObjectKind.ofStatement? verb plain)
      (((namedObject.find plain).map (·.group 0)).getD [])) := by
    simp only [definition?, h, hplain]
    cases namedObject.find plain <;> rfl
  have hbare : ofBare? (Comment.erase t) = definition? t := by
    rw [Comment.erase_unmarked hunmarked]
    simp [ofBare?, hshow, hdefinition]
  rw [ofStatement, hraw]
  simp only [hbare, hdefinition]

end Classification

namespace Extraction

/-- The verbs of statements that insert rows. -/
def insertVerbs : List Text :=
  ["INSERT".toList, "REPLACE".toList]

section

variable {k t : Text} (h : OpensWith k t)

include h

theorem locked?_eq_none (hapart : ¬ (k.map foldLetter <+: "LOCK TABLES".toList.map foldLetter ∨
    "LOCK TABLES".toList.map foldLetter <+: k.map foldLetter)) : locked? t = none := by
  refine Option.map_eq_none_iff.mpr (Option.eq_none_iff_forall_ne_some.mpr fun hit hfind => ?_)
  exact hapart (h.apart (((opening_keyword "LOCK TABLES".toList).append blanks).opensWith hfind))

/-- INTO is spelled out behind the verbs that insert rows and nowhere else. -/
theorem spellInto_eq_self (hapart : ∀ k' ∈ insertVerbs,
    ¬ (k.map foldLetter <+: k'.map foldLetter ∨ k'.map foldLetter <+: k.map foldLetter)) :
    spellInto t = t := by
  have hinsert : insertOpening.find t = none := by
    refine Option.eq_none_iff_forall_ne_some.mpr fun hit hfind => ?_
    have hanchored : insertOpening.Anchored := (anchored_textStart.append maybeBlanks).append _
    rw [find_anchored hanchored] at hfind
    obtain ⟨a, hrun, _⟩ := matchAt?_eq_some hfind
    rw [insertOpening, run_append, run_leading] at hrun
    obtain ⟨k', hk', w, rest, hafter, hw, _⟩ := run_keywords_eq_some hrun
    exact hapart k' hk' (h.apart ⟨w, rest, hafter, hw⟩)
  rw [spellInto, hinsert]

end

end Extraction
end QueryDigest
