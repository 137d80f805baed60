import Mathlib.Data.List.Destutter
import QueryDigest.Proofs.Pattern.Words
import QueryDigest.Proofs.Statement.Verbs

/-!
Verbs as words. The pattern of verbs, with its edges on both sides and its anchors inside, finds
just the words of a statement that read as a verb, where a word is a maximal run of word characters.
So the words that a statement is described by come from cutting it into words and nothing else.
-/

namespace QueryDigest

open Unicode (foldLetter isWord upper)

namespace Classification

open Pattern
open Text (wordRuns StandsIn)

/-! ### Verbs among words -/

/-- Whether a word counts as a verb: some verbs do so anywhere, the others at the start only. -/
def CountsAsVerb (run : Nat × Text) : Prop :=
  Reads innerVerbs run.2 ∨ run.1 = 0 ∧ Reads leadingVerbs run.2

instance : DecidablePred CountsAsVerb :=
  fun run => inferInstanceAs (Decidable (run.2.map foldLetter ∈ innerVerbs ∨
    run.1 = 0 ∧ run.2.map foldLetter ∈ leadingVerbs))

/-- The words of a text that count as verbs, in upper case. -/
def verbTokens (t : Text) : List Text :=
  ((wordRuns 0 t).filter CountsAsVerb).map fun run => upper run.2

/-- Tokens without repeats of their neighbours, cut back to SELECT and perhaps UNION behind a first
SELECT. -/
def collapsed (tokens : List Text) : List Text :=
  let kept := tokens.destutter (· ≠ ·)
  if 1 < kept.length ∧ kept.head? = some "SELECT".toList then
    if kept.contains "UNION".toList then ["SELECT".toList, "UNION".toList]
    else ["SELECT".toList]
  else kept

theorem isWord_of_reads {keywords : List Text} (h : ∀ k ∈ keywords, k.all Char.isUpper = true)
    {w : Text} (hw : Reads keywords w) : ∀ c ∈ w, isWord c = true := by
  intro c hc
  have hupper := List.all_eq_true.mp (h _ hw) (foldLetter c) (List.mem_map_of_mem hc)
  exact Unicode.isWord_of_isUpper_foldLetter hupper

theorem keywords_nonempty :
    ∀ k ∈ innerVerbs ++ leadingVerbs, k ≠ [] ∧ k.all Char.isUpper = true := by
  decide

/-- A verb that is found is a word of its own. -/
theorem verb_edges {before after : Text} {h : Hit}
    (hmatch : verb.matchAt? ⟨before, after⟩ = some h) :
    h.text ≠ [] ∧ (∀ c ∈ h.text, isWord c = true) ∧ isWordAt before.head? = false ∧
      isWordAt h.stop.after.head? = false := by
  obtain ⟨a, hrun, rfl⟩ := matchAt?_eq_some hmatch
  obtain ⟨hfirst, w, rest, hafter, hreads, rfl, hlast⟩ := run_verb_some hrun
  change after = w ++ rest at hafter
  subst hafter
  have htext : Hit.text ⟨⟨before, w ++ rest⟩, 0 + w.length, []⟩ = w := by
    simp [Hit.text]
  have hstop : (Hit.stop ⟨⟨before, w ++ rest⟩, 0 + w.length, []⟩).after = rest := by
    simp [Hit.stop, Cursor.skip]
  have hkeyword : Reads (innerVerbs ++ leadingVerbs) w :=
    List.mem_append.mpr (hreads.imp id And.right)
  have hword := isWord_of_reads (fun k hk => (keywords_nonempty k hk).2) hkeyword
  have hnonempty : w ≠ [] := by
    rintro rfl
    exact (keywords_nonempty _ hkeyword).1 rfl
  change isWordAt before.head? ≠ isWordAt (w ++ rest).head? at hfirst
  change isWordAt (w.reverse ++ before).head? ≠ isWordAt rest.head? at hlast
  rw [Text.isWordAt_head? hnonempty hword] at hfirst
  rw [Text.isWordAt_reverse hnonempty hword] at hlast
  change Hit.text ⟨⟨before, w ++ rest⟩, 0 + w.length, []⟩ ≠ [] ∧
    (∀ c ∈ Hit.text ⟨⟨before, w ++ rest⟩, 0 + w.length, []⟩, isWord c = true) ∧
    isWordAt before.head? = false ∧
    isWordAt (Hit.stop ⟨⟨before, w ++ rest⟩, 0 + w.length, []⟩).after.head? = false
  rw [htext, hstop]
  exact ⟨hnonempty, hword, Bool.eq_false_iff.mpr hfirst, Bool.eq_false_iff.mpr hlast.symm⟩

theorem choice_of_counts {before w : Text} (h : CountsAsVerb (before.length, w)) :
    ∃ start name, (start, name) ∈ choices ∧ (start = true → before = []) ∧
      w.map foldLetter = name.toList.map foldLetter := by
  have hnames : ∀ name ∈ ["SELECT", "INSERT", "UPDATE", "DELETE", "REPLACE", "UNION"],
      (false, name) ∈ choices ∧ name.toList.map foldLetter = name.toList := by
    decide
  have hstarts : ∀ name ∈ ["SHOW", "FLUSH", "COMMIT", "ROLLBACK", "BEGIN", "SET", "START", "LOCK"],
      (true, name) ∈ choices ∧ name.toList.map foldLetter = name.toList := by
    decide
  obtain hreads | ⟨hzero, hreads⟩ := h
  · obtain ⟨name, hname, hw⟩ := List.mem_map.mp hreads
    obtain ⟨hchoice, hfold⟩ := hnames name hname
    exact ⟨false, name, hchoice, (fun hfalse => nomatch hfalse), by rw [hfold, hw]⟩
  · obtain ⟨name, hname, hw⟩ := List.mem_map.mp hreads
    obtain ⟨hchoice, hfold⟩ := hstarts name hname
    exact ⟨true, name, hchoice, fun _ => List.length_eq_zero_iff.mp hzero, by rw [hfold, hw]⟩

/-- A word that counts as a verb is found. -/
theorem verb_of_counts {before w rest : Text} (hne : w ≠ []) (hw : ∀ c ∈ w, isWord c = true)
    (hbefore : isWordAt before.head? = false) (hrest : isWordAt rest.head? = false)
    (h : CountsAsVerb (before.length, w)) : verb.matchAt? ⟨before, w ++ rest⟩ ≠ none := by
  obtain ⟨start, name, hchoice, hstart, hfold⟩ := choice_of_counts h
  rw [Ne, matchAt?_eq_none, verb_eq, run_append, run_append]
  have hedge : (wordEdge.run (Attempt.take w rest (.start ⟨before, w ++ rest⟩)) some) ≠ none := by
    apply Option.ne_none_iff_exists'.mpr
    refine ⟨_, run_wordEdge_some.mpr ⟨?_, rfl⟩⟩
    change isWordAt (w.reverse ++ before).head? ≠ isWordAt rest.head?
    rw [Text.isWordAt_reverse hne hw, hrest]
    decide
  have hkeyword : (anyOf (choices.map choice)).run (.start ⟨before, w ++ rest⟩)
      (fun b => wordEdge.run b some) ≠ none := by
    apply run_anyOf_ne_none (List.mem_map_of_mem hchoice)
    have hrun : (keyword name.toList).run (.start ⟨before, w ++ rest⟩)
        (fun b => wordEdge.run b some) ≠ none := by
      rwa [run_keyword hfold rfl]
    cases start with
    | false => exact hrun
    | true =>
        obtain rfl := hstart rfl
        exact hrun
  obtain ⟨b, hb⟩ := Option.ne_none_iff_exists'.mp hkeyword
  apply Option.ne_none_iff_exists'.mpr
  refine ⟨b, run_wordEdge_some.mpr ⟨?_, hb⟩⟩
  change isWordAt before.head? ≠ isWordAt (w ++ rest).head?
  rw [Text.isWordAt_head? hne hw, hbefore]
  decide

/-- Where a verb is found at the start of a word, it is that word. -/
theorem counts_of_verb {before w rest : Text} (hw : ∀ c ∈ w, isWord c = true)
    (hrest : isWordAt rest.head? = false) {h : Hit}
    (hmatch : verb.matchAt? ⟨before, w ++ rest⟩ = some h) :
    h.text = w ∧ CountsAsVerb (before.length, w) := by
  obtain ⟨_, hword, _, hstop⟩ := verb_edges hmatch
  have htext : w = h.text := Text.word_unique (matchAt?_text hmatch).2.2 hw hword hrest hstop
  rw [htext]
  refine ⟨rfl, (verb_found hmatch).imp id ?_⟩
  rintro ⟨rfl, hreads⟩
  exact ⟨rfl, hreads⟩

theorem verbsBehind_hit {before w rest : Text} {c : Char} {h : Hit}
    (hmatch : verb.matchAt? ⟨before, c :: (w ++ rest)⟩ = some h) (htext : h.text = c :: w) :
    verbsBehind before (c :: (w ++ rest)) =
      upper (c :: w) :: verbsBehind ((c :: w).reverse ++ before) rest := by
  rw [verbsBehind, outlineFrom_hit hmatch htext, outlineFrom_skip, List.reverse_cons,
    List.append_assoc, List.singleton_append, ← htext]
  rfl

theorem verbsBehind_of_no_match {before w rest : Text}
    (h : ∀ u c v, w = u ++ c :: v →
      verb.matchAt? ⟨u.reverse ++ before, c :: (v ++ rest)⟩ = none) :
    verbsBehind before (w ++ rest) = verbsBehind (w.reverse ++ before) rest := by
  have hkept : ∀ w : Text, foundIn (w.map .inl) = [] := by
    intro w
    simp [foundIn, List.filterMap_map, Function.comp_def]
  rw [verbsBehind, outlineFrom_of_no_match before rest h, foundIn, List.filterMap_append]
  exact congrArg (· ++ _) (hkept w)

/-- The verbs of a text are the words in it that count as one. -/
theorem verbsBehind_eq_words (n : Nat) (before t : Text) (hn : before.length = n)
    (hbefore : isWordAt t.head? = true → isWordAt before.head? = false) :
    verbsBehind before t = ((wordRuns n t).filter CountsAsVerb).map fun run => upper run.2 := by
  fun_induction wordRuns n t generalizing before with
  | case1 => rfl
  | case2 n c rest hc ih =>
      have hrest := Text.isWordAt_dropWhile rest
      have hsplit := List.takeWhile_append_dropWhile (p := isWord) (l := rest)
      have htake : ∀ d ∈ rest.takeWhile isWord, isWord d = true := fun d hd =>
        List.mem_takeWhile_imp hd
      generalize rest.takeWhile isWord = w at *
      generalize rest.dropWhile isWord = v at *
      subst hsplit
      have hword : ∀ d ∈ c :: w, isWord d = true := List.forall_mem_cons.mpr ⟨hc, htake⟩
      have hbehind := ih ((c :: w).reverse ++ before)
        (by rw [List.length_append, List.length_reverse, hn, Nat.add_comm])
        (fun hhead => by rw [hrest] at hhead; cases hhead)
      rw [List.filter_cons]
      by_cases hcounts : CountsAsVerb (n, c :: w)
      · obtain ⟨h, hmatch⟩ := Option.ne_none_iff_exists'.mp
          (verb_of_counts (List.cons_ne_nil c w) hword (hbefore hc) hrest (hn ▸ hcounts))
        obtain ⟨htext, _⟩ := counts_of_verb hword hrest hmatch
        rw [verbsBehind_hit hmatch htext, if_pos (decide_eq_true hcounts), List.map_cons, hbehind]
      · have hnone : ∀ u d u', c :: w = u ++ d :: u' →
            verb.matchAt? ⟨u.reverse ++ before, d :: (u' ++ v)⟩ = none := by
          intro u d u' hu
          cases hmatch : verb.matchAt? ⟨u.reverse ++ before, d :: (u' ++ v)⟩ with
          | none => rfl
          | some h =>
              cases u with
              | nil =>
                  cases hu
                  exact absurd (hn ▸ (counts_of_verb hword hrest hmatch).2) hcounts
              | cons x u =>
                  have hu' : ∀ e ∈ x :: u, isWord e = true :=
                    fun e he => hword e (hu ▸ List.mem_append_left _ he)
                  have hedge := (verb_edges hmatch).2.2.1
                  rw [Text.isWordAt_reverse (List.cons_ne_nil x u) hu'] at hedge
                  cases hedge
        rw [if_neg (by simpa using hcounts), ← hbehind]
        exact verbsBehind_of_no_match hnone
  | case3 n c rest hc ih =>
      have hkept : ∀ h, verb.matchAt? ⟨before, c :: rest⟩ = some h → h.text = [] := by
        intro h hmatch
        obtain ⟨hne, hword, _, _⟩ := verb_edges hmatch
        have hhead := Text.isWordAt_head? hne hword h.stop.after
        rw [← (matchAt?_text hmatch).2.2] at hhead
        exact absurd hhead hc
      rw [← ih (c :: before) (congrArg (· + 1) hn) (fun _ => Bool.eq_false_iff.mpr hc),
        verbsBehind, outlineFrom_kept hkept]
      rfl

/-! ### The words of a statement -/

theorem withoutRepeats_eq_destutter (tokens : List Text) :
    withoutRepeats tokens = tokens.destutter (· ≠ ·) := by
  cases tokens with
  | nil => rfl
  | cons x tokens =>
      induction tokens generalizing x with
      | nil => rfl
      | cons y tokens ih =>
          rw [withoutRepeats, List.destutter_cons_cons]
          by_cases hxy : x = y
          · rw [if_pos hxy, if_neg (not_not_intro hxy), ih y, hxy]
            rfl
          · rw [if_neg hxy, if_pos hxy, ih y]
            rfl

theorem settled_eq_collapsed (tokens : List Text) :
    settled (withoutRepeats tokens) = collapsed tokens := by
  rw [withoutRepeats_eq_destutter, collapsed]
  generalize tokens.destutter (· ≠ ·) = kept
  cases kept with
  | nil => rfl
  | cons x rest =>
      by_cases hx : x = selectWord
      · have hunion : (x :: rest).contains "UNION".toList = true ↔ unionWord ∈ rest := by
          rw [List.contains_iff_mem, List.mem_cons, hx, or_iff_right (by decide)]
          rfl
        cases rest with
        | nil => simp [settled, doubtful, hx]
        | cons y rest =>
            have hdoubtful : doubtful (x :: y :: rest) = y :: rest := if_pos hx
            have hhead : 1 < (x :: y :: rest).length ∧
                (x :: y :: rest).head? = some "SELECT".toList :=
              ⟨by simp, congrArg some hx⟩
            simp only [settled, hdoubtful, if_pos hhead, hunion]
            rfl
      · have hhead : ¬ (1 < (x :: rest).length ∧ (x :: rest).head? = some "SELECT".toList) :=
          fun h => hx (Option.some.inj h.2)
        have hdoubtful : doubtful (x :: rest) = [] := if_neg hx
        simp only [settled, hdoubtful, if_neg hhead]

theorem isChain_collapsed (tokens : List Text) : (collapsed tokens).IsChain (· ≠ ·) := by
  rw [collapsed]
  split
  · split
    · decide
    · exact List.isChain_singleton _
  · exact List.isChain_destutter _ tokens

theorem mem_of_mem_collapsed {tokens : List Text} {x : Text} (h : x ∈ collapsed tokens) :
    x ∈ tokens := by
  rw [← settled_eq_collapsed] at h
  exact mem_of_mem_withoutRepeats (mem_of_mem_settled h)

/-- The first token stays, and what is left of the others is among them. -/
theorem collapsed_cons (x : Text) (tokens : List Text) :
    ∃ rest, collapsed (x :: tokens) = x :: rest ∧ ∀ y ∈ rest, y ∈ tokens := by
  obtain ⟨kept, hkept, hsub⟩ := withoutRepeats_cons x tokens
  obtain ⟨rest, hrest, hsub'⟩ := settled_cons x kept
  refine ⟨rest, ?_, fun y hy => hsub y (hsub' y hy)⟩
  rw [← settled_eq_collapsed, hkept, hrest]

theorem verbTokens_eq (t : Text) : verbTokens t = verbsBehind [] t :=
  (verbsBehind_eq_words 0 [] t rfl fun _ => rfl).symm

theorem reads_tail_collapsed (t : Text) :
    ∀ x ∈ (collapsed (verbTokens t)).tail, ¬ Reads leadingVerbs x := by
  have hapart : ∀ k ∈ innerVerbs, k ∉ leadingVerbs := by decide
  obtain ⟨_, htail⟩ := reads_verbsBehind t
  rw [verbTokens_eq]
  cases hverbs : verbsBehind [] t with
  | nil => exact List.forall_mem_nil _
  | cons x v =>
      rw [hverbs] at htail
      obtain ⟨rest, hrest, hsub⟩ := collapsed_cons x v
      rw [hrest]
      exact fun y hy => hapart _ (htail y (hsub y hy))

theorem standsIn_of_mem_collapsed {t x : Text} (h : x ∈ collapsed (verbTokens t)) :
    ∃ before w after, StandsIn t before w after ∧ upper w = x := by
  obtain ⟨run, hrun, rfl⟩ := List.mem_map.mp (mem_of_mem_collapsed h)
  obtain ⟨before, after, hstands, _⟩ :=
    Text.standsIn_of_mem_wordRuns (u := []) (n := 0) rfl (fun _ => rfl)
      (List.mem_of_mem_filter hrun)
  exact ⟨before, run.2, after, hstands, rfl⟩

/-- A statement that no shape claims is described by the words in it that count as verbs, and names
no object. No two neighbours among these are equal, only the first can be a verb of the start, and
each stands in the statement as a word of its own. -/
theorem words_eq_verbTokens (q : Text) (hraw : ofRaw? q = none)
    (hbare : ofBare? (Comment.erase q) = none) :
    (ofStatement q).words = Text.spaced (collapsed (verbTokens (Comment.erase q))) ∧
      (ofStatement q).object = [] ∧
      (collapsed (verbTokens (Comment.erase q))).IsChain (· ≠ ·) ∧
      (∀ x ∈ (collapsed (verbTokens (Comment.erase q))).tail, ¬ Reads leadingVerbs x) ∧
      ∀ x ∈ collapsed (verbTokens (Comment.erase q)), ∃ before w after,
        StandsIn (Comment.erase q) before w after ∧ upper w = x := by
  have hwords : words (.verbWords (verbsIn (Comment.erase q))) =
      Text.spaced (collapsed (verbTokens (Comment.erase q))) := by
    rw [verbsIn_eq, ← verbTokens_eq, ← settled_eq_collapsed]
    rfl
  rw [ofStatement_of_unclaimed hraw hbare]
  exact ⟨hwords, rfl, isChain_collapsed _, reads_tail_collapsed _,
    fun x hx => standsIn_of_mem_collapsed hx⟩

/-- A verb of the start with a Kelvin sign, a verb with a long s, a repeat, and verbs inside words
and comments. -/
theorem words_eq_verbTokens_lock :
    ofRaw? "LOC\u212a t \u017felect, select x_insert -- delete\n update2 update".toList = none ∧
      ofBare? (Comment.erase
        "LOC\u212a t \u017felect, select x_insert -- delete\n update2 update".toList) = none ∧
      Text.spaced (collapsed (verbTokens (Comment.erase
        "LOC\u212a t \u017felect, select x_insert -- delete\n update2 update".toList))) =
          "LOC\u212a SELECT UPDATE".toList := by
  have hraw : ofRaw? "LOC\u212a t \u017felect, select x_insert -- delete\n update2 update".toList =
      none := Option.isNone_iff_eq_none.mp (by decide +kernel)
  have hbare : ofBare? (Comment.erase
      "LOC\u212a t \u017felect, select x_insert -- delete\n update2 update".toList) = none :=
    Option.isNone_iff_eq_none.mp (by decide +kernel)
  refine ⟨hraw, hbare, ?_⟩
  rw [← (words_eq_verbTokens _ hraw hbare).1]
  decide +kernel

end Classification
end QueryDigest
