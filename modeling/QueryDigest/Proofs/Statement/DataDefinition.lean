import QueryDigest.Proofs.Pattern.Words
import QueryDigest.Statement.DataDefinition

/-!
The start of data definition statements. A statement is one just where a verb stands behind its
leading white space as a word of its own, and then it is the statement of that verb.
-/

namespace QueryDigest

open Unicode (foldLetter isBlank isWord)

namespace DefinitionVerb

open Pattern

/-- A text starts with a verb that is a word of its own, behind white space and in any case. -/
def Opens (verb : DefinitionVerb) (t : Text) : Prop :=
  ∃ w rest, t.dropWhile isBlank = w ++ rest ∧
    w.map foldLetter = verb.keyword.map foldLetter ∧ isWordAt rest.head? = false

theorem mem_all (verb : DefinitionVerb) : verb ∈ all := by
  cases verb <;> decide

/-- No verb is the start of another one. -/
theorem eq_of_start {verb verb' : DefinitionVerb}
    (h : verb.keyword.map foldLetter <+: verb'.keyword.map foldLetter) : verb = verb' := by
  revert h
  cases verb <;> cases verb' <;> decide

theorem isUpper_keyword (verb : DefinitionVerb) :
    (verb.keyword.map foldLetter).all Char.isUpper = true := by
  cases verb <;> decide

theorem isWord_of_keyword {verb : DefinitionVerb} {w : Text}
    (h : w.map foldLetter = verb.keyword.map foldLetter) :
    w ≠ [] ∧ ∀ c ∈ w, isWord c = true :=
  Text.word_of_fold h (by cases verb <;> decide) (isUpper_keyword verb)

theorem isWord_keyword (verb : DefinitionVerb) : ∀ c ∈ verb.keyword, isWord c = true :=
  (isWord_of_keyword rfl).2

theorem Opens.unique {verb verb' : DefinitionVerb} {t : Text} (h : verb.Opens t)
    (h' : verb'.Opens t) : verb = verb' := by
  obtain ⟨w, rest, ht, hw, _⟩ := h
  obtain ⟨w', rest', ht', hw', _⟩ := h'
  have hstart := fold_starts ht ht'
  rw [hw, hw'] at hstart
  obtain hstart | hstart := hstart
  · exact eq_of_start hstart
  · exact (eq_of_start hstart).symm

theorem find_opening (t : Text) :
    opening.find t = ((Pattern.group (keywords (all.map keyword))).run (.leading t) fun b =>
      wordEdge.run b some).map fun a => ⟨.start t, a.passed, a.groups⟩ := by
  have hanchored : opening.Anchored :=
    ((anchored_textStart.append maybeBlanks).append _).append wordEdge
  rw [find_anchored hanchored, matchAt?]
  change Option.map _ ((textStart ++ maybeBlanks).run (.start (.start t)) fun b =>
    (Pattern.group (keywords (all.map keyword))).run b fun b => wordEdge.run b some) = _
  rw [run_leading]

theorem isWordAt_take {verb : DefinitionVerb} {w : Text}
    (h : w.map foldLetter = verb.keyword.map foldLetter) (rest : Text) (a : Attempt)
    (opened : Nat) : isWordAt ((a.take w rest).close opened).before.head? = true := by
  obtain ⟨hne, hword⟩ := isWord_of_keyword h
  exact Text.isWordAt_reverse hne hword a.before

theorem drop_leading (t : Text) : t.drop (Attempt.leading t).passed = t.dropWhile isBlank := by
  have ht := List.takeWhile_append_dropWhile (p := isBlank) (l := t)
  calc t.drop (t.takeWhile isBlank).length
      = (t.takeWhile isBlank ++ t.dropWhile isBlank).drop (t.takeWhile isBlank).length := by
        rw [ht]
    _ = t.dropWhile isBlank := List.drop_left

theorem run_wordEdge_eq_some {a b : Attempt} (hword : isWordAt a.before.head? = true) :
    wordEdge.run a some = some b ↔ isWordAt a.after.head? = false ∧ a = b := by
  simp only [wordEdge, run, hword]
  cases isWordAt a.after.head? <;> simp

theorem find_opening_eq_some {t : Text} {h : Hit} (hfind : opening.find t = some h) :
    ∃ verb : DefinitionVerb, ∃ w rest, t.dropWhile isBlank = w ++ rest ∧
      w.map foldLetter = verb.keyword.map foldLetter ∧ isWordAt rest.head? = false ∧
      h.group 0 = w := by
  rw [find_opening, Option.map_eq_some_iff] at hfind
  obtain ⟨a, hrun, rfl⟩ := hfind
  rw [run_group] at hrun
  obtain ⟨k, hk, w, rest, hafter, hw, hedge⟩ := run_keywords_eq_some hrun
  obtain ⟨verb, _, rfl⟩ := List.mem_map.mp hk
  obtain ⟨hrest, rfl⟩ := (run_wordEdge_eq_some (isWordAt_take hw rest _ _)).mp hedge
  refine ⟨verb, w, rest, hafter, hw, hrest, ?_⟩
  have hdrop : t.drop (Attempt.leading t).passed = w ++ rest := (drop_leading t).trans hafter
  change (t.drop (Attempt.leading t).passed).take
    ((Attempt.leading t).passed + w.length - (Attempt.leading t).passed) = w
  rw [Nat.add_sub_cancel_left, hdrop, List.take_left]

theorem opens_of_ofStatement? {verb : DefinitionVerb} {t : Text}
    (h : ofStatement? t = some verb) : verb.Opens t := by
  unfold ofStatement? at h
  cases hfind : opening.find t with
  | none => rw [hfind] at h; cases h
  | some hit =>
      rw [hfind] at h
      obtain ⟨verb', w, rest, ht, _, hrest, hgroup⟩ := find_opening_eq_some hfind
      have hsame := List.find?_some h
      rw [hgroup, Unicode.sameLetters, beq_iff_eq] at hsame
      exact ⟨w, rest, ht, hsame.symm, hrest⟩

theorem ofStatement?_ne_none {verb : DefinitionVerb} {t : Text} (h : verb.Opens t) :
    ofStatement? t ≠ none := by
  obtain ⟨w, rest, ht, hw, hrest⟩ := h
  have hfind : opening.find t ≠ none := by
    rw [find_opening, Ne, Option.map_eq_none_iff, run_group]
    refine run_keywords_ne_none (List.mem_map_of_mem (mem_all verb)) hw ht ?_
    rw [(run_wordEdge_eq_some (isWordAt_take hw rest _ _)).mpr ⟨hrest, rfl⟩]
    exact Option.some_ne_none _
  obtain ⟨hit, hhit⟩ := Option.ne_none_iff_exists'.mp hfind
  obtain ⟨verb', w', _, _, hw', _, hgroup⟩ := find_opening_eq_some hhit
  unfold ofStatement?
  rw [hhit]
  intro hnone
  have hverb := List.find?_eq_none.mp hnone verb' (mem_all verb')
  rw [hgroup, Unicode.sameLetters, hw', beq_self_eq_true] at hverb
  exact hverb rfl

/-- The verb of a statement is the one it opens with. -/
theorem ofStatement?_eq_some {verb : DefinitionVerb} {t : Text} :
    ofStatement? t = some verb ↔ verb.Opens t := by
  constructor
  · exact opens_of_ofStatement?
  · intro h
    obtain ⟨verb', hverb'⟩ := Option.ne_none_iff_exists'.mp (ofStatement?_ne_none h)
    rw [hverb', (opens_of_ofStatement? hverb').unique h]

/-- A statement whose first word is no verb is not a data definition. -/
theorem ofStatement?_of_word {w rest : Text} (hne : w ≠ []) (hword : ∀ c ∈ w, isWord c = true)
    (hrest : isWordAt rest.head? = false)
    (hother : ∀ verb : DefinitionVerb, w.map foldLetter ≠ verb.keyword.map foldLetter) :
    ofStatement? (w ++ rest) = none := by
  cases hverb : ofStatement? (w ++ rest) with
  | none => rfl
  | some verb =>
      obtain ⟨w', rest', hsplit, hw', hrest'⟩ := opens_of_ofStatement? hverb
      obtain ⟨c, w, rfl⟩ := List.exists_cons_of_ne_nil hne
      have hfirst := Unicode.isBlank_of_isWord (hword c List.mem_cons_self)
      rw [List.cons_append, List.dropWhile_cons_of_neg (by simp [hfirst])] at hsplit
      obtain rfl : c :: w = w' :=
        Text.word_unique hsplit hword (isWord_of_keyword hw').2 hrest hrest'
      exact absurd hw' (hother verb)

/-- The verb stands in front of a character that is neither blank nor part of a word. -/
theorem Opens.change_behind {verb : DefinitionVerb} {p v : Text} {q : Char}
    (hblank : isBlank q = false) (hword : isWord q = false) (h : verb.Opens (p ++ q :: v))
    (q' : Char) (hblank' : isBlank q' = false) (hword' : isWord q' = false) (v' : Text) :
    verb.Opens (p ++ q' :: v') := by
  obtain ⟨w, rest, ht, hw, hrest⟩ := h
  have hdrop : ∀ {x : Char} (_ : isBlank x = false) (more : Text),
      (p ++ x :: more).dropWhile isBlank = p.dropWhile isBlank ++ x :: more :=
    fun hx more => (Text.span_before hx p more).2
  rw [hdrop hblank] at ht
  have hq : q ∉ w := by
    intro hmem
    have hmem' : foldLetter q ∈ verb.keyword.map foldLetter := hw ▸ List.mem_map_of_mem hmem
    have hupper : (foldLetter q).isUpper = true :=
      List.all_eq_true.mp (isUpper_keyword verb) _ hmem'
    rw [Unicode.isWord_of_isUpper_foldLetter hupper] at hword
    cases hword
  obtain ⟨more, hmore, rfl⟩ := Text.split_before ht hq
  refine ⟨w, more ++ q' :: v', ?_, hw, ?_⟩
  · rw [hdrop hblank', hmore, List.append_assoc]
  · cases more with
    | nil => exact hword'
    | cons d more => exact hrest

end DefinitionVerb
end QueryDigest
