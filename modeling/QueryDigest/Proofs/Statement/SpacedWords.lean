import QueryDigest.Proofs.Pattern.WordPasses
import QueryDigest.Proofs.Statement.NameLists
import QueryDigest.Proofs.Statement.Openings

/-!
Words with single spaces between them. Such a text is cut into just these words, and the search for
clauses follows it word by word: behind a word that opens a clause it takes the next word for a
name, whatever that word is, and goes on behind both.
-/

namespace QueryDigest

open TableClause (Wordy)
open Unicode (foldLetter isBlank isWord)

namespace Text

open Pattern (isWordAt)

theorem edge_behind (ws : List Text) : isWordAt (ws.flatMap (' ' :: ·)).head? = false := by
  cases ws <;> rfl

@[simp] theorem spaced_singleton (w : Text) : spaced [w] = w := by
  simp [spaced_cons]

theorem spaced_cons_cons (v w : Text) (ws : List Text) :
    spaced (v :: w :: ws) = v ++ ' ' :: spaced (w :: ws) :=
  join_cons (List.cons_ne_nil w ws) [' ']

theorem spaced_append {vs : List Text} (hne : vs ≠ []) (ws : List Text) :
    spaced (vs ++ ws) = spaced vs ++ ws.flatMap (' ' :: ·) := by
  obtain ⟨v, vs, rfl⟩ := List.exists_cons_of_ne_nil hne
  rw [List.cons_append, spaced_cons, spaced_cons, List.flatMap_append, List.append_assoc]

theorem forall_mem_spaced {P : Char → Prop} {ws : List Text} (hspace : P ' ')
    (h : ∀ w ∈ ws, ∀ c ∈ w, P c) : ∀ c ∈ spaced ws, P c := by
  intro c hc
  obtain hc | ⟨w, hw, hmem⟩ := mem_join hc
  · rwa [List.mem_singleton.mp hc]
  · exact h w hw c hmem

section

variable {ws : List Text} (h : ∀ w ∈ ws, Wordy w)

include h

theorem space_not_mem : ∀ w ∈ ws, ' ' ∉ w :=
  fun w hw hmem => absurd ((h w hw).2 ' ' hmem) (by decide)

/-- Words with single spaces between them can be told apart again. -/
theorem spaced_inj {vs : List Text} (hvs : ∀ v ∈ vs, Wordy v) (hne : vs ≠ []) (hne' : ws ≠ []) :
    spaced vs = spaced ws ↔ vs = ws := by
  refine ⟨fun heq => ?_, congrArg spaced⟩
  rw [← List.splitOn_intercalate ' ' (space_not_mem hvs) hne,
    ← List.splitOn_intercalate ' ' (space_not_mem h) hne']
  exact congrArg (List.splitOn ' ') heq

end

theorem wordRuns_append {w rest : Text} (hw : Wordy w) (hrest : isWordAt rest.head? = false)
    (n : Nat) : wordRuns n (w ++ rest) = (n, w) :: wordRuns (n + w.length) rest := by
  obtain ⟨hne, hword⟩ := hw
  obtain ⟨c, w, rfl⟩ := List.exists_cons_of_ne_nil hne
  obtain ⟨hc, hw⟩ := List.forall_mem_cons.mp hword
  obtain ⟨htake, hdrop⟩ := span_append hw (not_word_of_edge hrest)
  rw [List.cons_append, wordRuns, if_pos hc, htake, hdrop]

/-- The text behind a word is cut into the words that stand in it behind spaces. -/
theorem map_snd_wordRuns {ws : List Text} (h : ∀ w ∈ ws, Wordy w) (n : Nat) :
    (wordRuns n (ws.flatMap (' ' :: ·))).map Prod.snd = ws := by
  induction ws generalizing n with
  | nil => simp [wordRuns]
  | cons w ws ih =>
      obtain ⟨hw, hws⟩ := List.forall_mem_cons.mp h
      rw [List.flatMap_cons, List.cons_append, wordRuns, if_neg (by decide),
        wordRuns_append hw (edge_behind ws), List.map_cons, ih hws]

theorem wordRuns_spaced {w : Text} {ws : List Text} (hw : Wordy w) (h : ∀ w ∈ ws, Wordy w) :
    ∃ runs, wordRuns 0 (spaced (w :: ws)) = (0, w) :: runs ∧ runs.map Prod.snd = ws := by
  refine ⟨_, ?_, map_snd_wordRuns h (0 + w.length)⟩
  rw [spaced_cons, wordRuns_append hw (edge_behind ws)]

end Text

theorem opensWith_front {w : Text} (hw : Wordy w) (u rest : Text) :
    OpensWith (w ++ u) (w ++ u ++ rest) := by
  have hopens : OpensWith (w ++ u) ([] ++ (w ++ u ++ rest)) := by
    refine opensWith_of_lead (List.forall_mem_nil _) rfl ?_
    rw [List.append_assoc]
    exact TableClause.head?_wordy hw _
  exact hopens

theorem Comment.erase_spaced {ws : List Text} (h : ∀ w ∈ ws, Wordy w) :
    Comment.erase (Text.spaced ws) = Text.spaced ws :=
  Comment.erase_unmarked (Comment.unmarked_of_words
    (Text.forall_mem_spaced (Or.inr rfl) fun w hw c hc => Or.inl ((h w hw).2 c hc)))

namespace TableClause

open Pattern
open Text (spaced spaced_cons spaced_cons_cons edge_behind)

/-! ### The names behind the words that open a clause -/

/-- The words that are taken for names: each stands right behind a word that opens a clause and is
not taken for a name itself. -/
def namesBehind : List Text → List Text
  | v :: w :: ws =>
    if anchors.contains (v.map foldLetter) then w :: namesBehind ws else namesBehind (w :: ws)
  | _ => []

theorem mem_tail_of_mem_namesBehind {ws : List Text} : ∀ w ∈ namesBehind ws, w ∈ ws.tail := by
  fun_induction namesBehind ws with
  | case1 v w ws hanchor ih =>
      refine List.forall_mem_cons.mpr ⟨List.mem_cons_self, fun u hu => ?_⟩
      exact List.mem_cons_of_mem w (List.mem_of_mem_tail (ih u hu))
  | case2 v w ws hother ih => exact fun u hu => List.mem_cons_of_mem w (ih u hu)
  | case3 ws hshort => exact List.forall_mem_nil _

/-- A word that does not end like KEY, so that an UPDATE behind it opens a clause. -/
structure Unkeyed (w : Text) : Prop where
  wordy : Wordy w
  fold : 'Y' ∉ w.map foldLetter

theorem foldLetter_of_toUpper {c : Char} (h : c.toUpper = 'Y') : foldLetter c = 'Y' := by
  have halpha : c.isAlpha = true := Unicode.isAlpha_of_isUpper_toUpper (h ▸ rfl)
  exact Unicode.ascii_all (P := fun c => c.toUpper = 'Y' → foldLetter c = 'Y') (by decide)
    (Unicode.toNat_lt_of_isAlpha halpha) h

theorem followsKey_behind {w : Text} (hw : Unkeyed w) (before : Text) :
    followsKey (' ' :: (w.reverse ++ before)) = false := by
  obtain ⟨u, c, rfl⟩ : ∃ u c, w = u ++ [c] :=
    ⟨_, _, (List.dropLast_concat_getLast hw.wordy.1).symm⟩
  have hc : c.toUpper ≠ 'Y' := by
    intro hupper
    refine hw.fold (List.mem_map.mpr ⟨c, ?_, foldLetter_of_toUpper hupper⟩)
    exact List.mem_append_right u List.mem_cons_self
  rw [List.reverse_append, List.reverse_singleton, List.singleton_append, List.cons_append]
  match u.reverse ++ before with
  | [] | [_] => rfl
  | e :: k :: more => simp [followsKey, hc]

theorem run_nameList_nil {a : Attempt} (h : a.after = []) (onward : Onward) :
    nameList.run a onward = none := by
  have hquoted : ∀ onward, Identifier.quoted.run a onward = none := by
    intro onward
    rw [Identifier.quoted, run_append, run_append]
    exact run_char_none (by simp [h]) _
  have hword : ∀ onward, word.run a onward = none := by
    intro onward
    rw [word, someOf, run_append]
    exact run_one_none (by simp [h]) _
  rw [nameList, run_append, Identifier.pattern, run_append, Identifier.simple, run_or, hquoted,
    hword, Option.or_none]

/-- A clause needs a name behind the word that opens it. -/
theorem run_behindAnchor_nil {a : Attempt} (h : a.after = []) (onward : Onward) :
    behindAnchor.run a onward = none := by
  refine Option.eq_none_iff_forall_ne_some.mpr fun b hrun => ?_
  rw [behindAnchor, run_append] at hrun
  obtain ⟨_, hrun⟩ := run_wordEdge_some.mp hrun
  have hnone : ((maybeBlanks ++ Pattern.optional (char '(')) ++ .group nameList).run a onward =
      none := by
    rw [run_append]
    refine run_none fun c hreaches => ?_
    obtain ⟨u, hsplit, _⟩ := hreaches
    rw [run_group]
    refine run_nameList_nil ?_ _
    rw [h] at hsplit
    exact (List.append_eq_nil_iff.mp hsplit.symm).2
  exact Option.some_ne_none b (hrun.symm.trans hnone)

/-- Nothing is found at the last word of a text. -/
theorem yields_last {w : Text} (hword : ∀ c ∈ w, isWord c = true) (before : Text) :
    Yields before w [] [] := by
  apply yields_of_no_match
  intro u c v hsplit
  refine Option.eq_none_iff_forall_ne_some.mpr fun h hmatch => ?_
  obtain ⟨_, k, hk, w', rest, hafter, hw', hedge, a, b, rfl, _, hrun, _⟩ := clause_runs hmatch
  -- The edge behind the anchor makes it the whole word, so that no name can follow.
  have hend : ∀ d ∈ c :: v, isWord d = true := fun d hd =>
    hword d (hsplit ▸ List.mem_append_right u hd)
  rw [List.append_nil] at hafter
  have hsame : c :: v = w' := Text.word_unique ((List.append_nil _).trans hafter) hend
    (word_of_anchor hk hw').2 rfl hedge
  rw [hsame] at hafter
  rw [run_behindAnchor_nil (List.self_eq_append_right.mp hafter)] at hrun
  cases hrun

/-- The search over a text that stands behind a space goes on with the text. -/
theorem yields_behind {ws : List Text} {found : List Text} {before : Text}
    (h : Yields (' ' :: before) (spaced ws) [] found) (hnil : ws = [] → found = []) :
    Yields before (ws.flatMap (' ' :: ·)) [] found := by
  cases ws with
  | nil =>
      rw [hnil rfl]
      rfl
  | cons w ws =>
      have hsplit : (w :: ws).flatMap (' ' :: ·) = ' ' :: spaced (w :: ws) := by
        rw [spaced_cons, List.flatMap_cons, List.cons_append]
      rw [hsplit]
      exact .mark rfl h

theorem fold_anchors : ∀ k ∈ anchors, k.map foldLetter = k := by
  decide

theorem endsList_behind {ws : List Text} (h : ∀ w ∈ ws, Wordy w) :
    EndsList (ws.flatMap (' ' :: ·)) := by
  refine ⟨edge_behind ws, ?_, fun hcomma => ?_⟩
  · cases ws with
    | nil => simp
    | cons w ws => simp
  · obtain ⟨w, hw, hmem⟩ := List.mem_flatMap.mp hcomma
    obtain hmem | hmem := List.mem_cons.mp hmem
    · exact absurd hmem (by decide)
    · exact absurd ((h w hw).2 ',' hmem) (by decide)

/-- The search over words with single spaces between them finds the names behind anchors. -/
theorem yields_spaced {ws : List Text} (h : ∀ w ∈ ws, Unkeyed w) {before : Text}
    (hbefore : isWordAt before.head? = false) (hkey : followsKey before = false) :
    Yields before (spaced ws) [] (namesBehind ws) := by
  fun_induction namesBehind ws generalizing before with
  | case1 v w ws hanchor ih =>
      obtain ⟨hv, hrest⟩ := List.forall_mem_cons.mp h
      obtain ⟨hw, hws⟩ := List.forall_mem_cons.mp hrest
      have hends : EndsList (ws.flatMap (' ' :: ·) ++ []) := by
        rw [List.append_nil]
        exact endsList_behind fun w hw => (hws w hw).wordy
      have hmem : v.map foldLetter ∈ anchors := List.contains_iff_mem.mp hanchor
      have hsingle : Single v [' '] w (ws.flatMap (' ' :: ·) ++ []) :=
        ⟨⟨_, hmem, (fold_anchors _ hmem).symm⟩,
          ⟨[' '], List.cons_ne_nil ' ' [], List.forall_mem_singleton.mpr rfl, Or.inl rfl⟩,
          hw.wordy.1, hw.wordy.2, hends⟩
      have hclause := hsingle.clause.yields hbefore fun _ => hkey
      have hbehind : Yields ((v ++ ([' '] ++ w)).reverse ++ before) (ws.flatMap (' ' :: ·)) []
          (namesBehind ws) := by
        refine yields_behind (ih hws rfl ?_) ?_
        · have hkey' := followsKey_behind hw ((v ++ [' ']).reverse ++ before)
          simpa using hkey'
        · rintro rfl
          rfl
      have hall := hclause.append hbehind
      rw [spaced_cons, List.flatMap_cons]
      simpa using hall
  | case2 v w ws hother ih =>
      obtain ⟨hv, hrest⟩ := List.forall_mem_cons.mp h
      have hnone : ∀ k ∈ anchors, v.map foldLetter ≠ k.map foldLetter := by
        intro k hk hfold
        rw [fold_anchors k hk] at hfold
        exact hother (List.contains_iff_mem.mpr (hfold ▸ hk))
      have hword : Yields before v (' ' :: spaced (w :: ws) ++ []) [] :=
        yields_word hv.wordy.2 hnone before rfl
      rw [spaced_cons_cons]
      exact hword.append (.mark rfl (ih hrest rfl (followsKey_behind hv before)))
  | case3 ws hshort =>
      match ws with
      | [] => rfl
      | [v] =>
          rw [Text.spaced_singleton]
          exact yields_last (h v List.mem_cons_self).wordy.2 before
      | v :: w :: ws => exact absurd rfl (hshort v w ws)

/-- The clauses of a text are those of its words. -/
theorem lists_spaced {ws : List Text} (h : ∀ w ∈ ws, Unkeyed w) :
    lists (spaced ws) = namesBehind ws :=
  (yields_spaced h rfl rfl).lists

end TableClause

/-! ### INTO spelled out -/

namespace Pattern

theorem Attempt.leading_eq_start {t : Text} (h : ∀ c, t.head? = some c → isBlank c = false) :
    Attempt.leading t = .start (.start t) := by
  obtain ⟨htake, hdrop⟩ := Text.span_append (w := []) (List.forall_mem_nil _) h
  rw [List.nil_append] at htake hdrop
  rw [Attempt.leading, htake, hdrop]
  rfl

end Pattern

namespace Extraction

open Pattern

theorem opensWith_into {t : Text} (h : leadingInto.occursIn t = true) :
    OpensWith "INTO".toList t := by
  have hanchored : leadingInto.Anchored := (anchored_textStart.append blanks).append _
  rw [occursIn, find_anchored hanchored] at h
  obtain ⟨hit, hmatch⟩ := Option.isSome_iff_exists.mp h
  obtain ⟨a, hrun, _⟩ := matchAt?_eq_some hmatch
  change blanks.run (.start (.start t)) (fun b => (keyword "INTO".toList).run b some) = some a
    at hrun
  obtain ⟨bs, rest, hsplit, hbs, hedge, hrun⟩ := run_blanks_eq_some hrun
  obtain ⟨w, more, hafter, hw, _⟩ := run_keyword_eq_some hrun
  obtain rfl : t = bs ++ rest := hsplit
  obtain rfl : rest = w ++ more := hafter
  exact opensWith_of_lead hbs.blank hw hedge

section

variable {v rest : Text} (hv : v.map foldLetter ∈ insertVerbs)

include hv

theorem word_of_insert : v ≠ [] ∧ ∀ c ∈ v, isWord c = true := by
  have hverbs : ∀ k ∈ insertVerbs, k.map foldLetter = k ∧ k ≠ [] ∧
      (k.map foldLetter).all Char.isUpper = true := by
    decide
  obtain ⟨hfold, hne, hupper⟩ := hverbs _ hv
  exact Text.word_of_fold hfold.symm hne hupper

theorem leading_insert :
    Attempt.leading (v ++ ' ' :: rest) = .start (.start (v ++ ' ' :: rest)) := by
  obtain ⟨hne, hword⟩ := word_of_insert hv
  exact Attempt.leading_eq_start
    (Text.head_nonblank (fun c hc => Unicode.isBlank_of_isWord (hword c hc)) hne _)

theorem run_insertVerb (onward : Onward) :
    (keywords insertVerbs).run (.start (.start (v ++ ' ' :: rest))) onward =
      onward ((Attempt.start (.start (v ++ ' ' :: rest))).take v (' ' :: rest)) := by
  have hapart : ∀ k ∈ insertVerbs, k.map foldLetter = k ∧ ∀ k' ∈ insertVerbs,
      k'.map foldLetter <+: k.map foldLetter ∨ k.map foldLetter <+: k'.map foldLetter →
        k' = k := by
    decide
  obtain ⟨hfold, hothers⟩ := hapart _ hv
  exact run_keywords hv hfold.symm hothers rfl onward

theorem find_insertOpening : insertOpening.find (v ++ ' ' :: rest) =
    some ⟨.start (v ++ ' ' :: rest), v.length, []⟩ := by
  have hanchored : insertOpening.Anchored := (anchored_textStart.append maybeBlanks).append _
  rw [find_anchored hanchored]
  change ((textStart ++ maybeBlanks).run (.start (.start (v ++ ' ' :: rest))) fun b =>
    (keywords insertVerbs).run b some).map _ = _
  rw [run_leading, leading_insert hv, run_insertVerb hv]
  simp [Attempt.start]

theorem find_insertPrefix (hrest : ∀ c, rest.head? = some c → isBlank c = false) :
    insertPrefix.find (v ++ ' ' :: rest) =
      some ⟨.start (v ++ ' ' :: rest), v.length + 1, [(0, v.length)]⟩ := by
  have hanchored : insertPrefix.Anchored :=
    ((anchored_textStart.append maybeBlanks).append _).append blanks
  rw [find_anchored hanchored]
  change ((textStart ++ maybeBlanks).run (.start (.start (v ++ ' ' :: rest))) fun b =>
    (Pattern.group (keywords insertVerbs)).run b fun c => blanks.run c some).map _ = _
  rw [run_leading, leading_insert hv, run_group, run_insertVerb hv, run_blank hrest rfl]
  simp [Attempt.start, Attempt.close]

/-- A space behind the verb makes room for INTO, unless INTO stands there. -/
theorem spellInto_insert (hrest : ∀ c, rest.head? = some c → isBlank c = false)
    (hinto : ¬ OpensWith "INTO".toList (' ' :: rest)) :
    spellInto (v ++ ' ' :: rest) = v ++ (" INTO ".toList ++ rest) := by
  have hnone : leadingInto.occursIn (Hit.stop ⟨.start (v ++ ' ' :: rest), v.length, []⟩).after =
      false := by
    have hafter : (Hit.stop ⟨.start (v ++ ' ' :: rest), v.length, []⟩).after = ' ' :: rest :=
      List.drop_left
    rw [hafter]
    exact Bool.eq_false_iff.mpr (mt opensWith_into hinto)
  have hgroup : Hit.group ⟨.start (v ++ ' ' :: rest), v.length + 1, [(0, v.length)]⟩ 0 = v :=
    Hit.group_single [] [] v (' ' :: rest) _ rfl (Nat.zero_add _).symm
  rw [spellInto, find_insertOpening hv]
  simp only [hnone, replaceFirst, find_insertPrefix hv hrest, hgroup]
  simp [Hit.stop, Cursor.skip, Cursor.start]

end

end Extraction
end QueryDigest
