import QueryDigest.Proofs.Statement.ShowPhrases
import QueryDigest.Proofs.Unicode.LetterCase

/-!
SHOW statements with a pattern behind LIKE. The words in front of LIKE decide the fingerprint by
themselves: each pass over them is followed word by word, filler words leave white space, and the
first word that opens a clause takes the pattern and all else away. What the passes over comments
and counts do within the pattern does not matter, because none of them reaches in front of it.
-/

namespace QueryDigest

open Pattern
open Text (Blank Words)
open Unicode (isBlank isWord)

/-- A word with the white space in front of it. -/
structure Gapped where
  gap : Text
  word : Text
  blank : Blank gap
  nonempty : word ≠ []
  chars : ∀ c ∈ word, isWord c = true

namespace Gapped

def text (g : Gapped) : Text :=
  g.gap ++ g.word

def texts (gs : List Gapped) : Text :=
  gs.flatMap text

theorem texts_cons (g : Gapped) (gs : List Gapped) : texts (g :: gs) = g.text ++ texts gs :=
  List.flatMap_cons

theorem nonblank (g : Gapped) : ∀ c ∈ g.word, isBlank c = false :=
  fun c hc => Unicode.isBlank_of_isWord (g.chars c hc)

theorem words (g : Gapped) : Words [g.word] :=
  List.forall_mem_singleton.mpr ⟨g.nonempty, g.nonblank⟩

/-- A word with one more space in front of it. -/
def spaced (g : Gapped) : Gapped :=
  { g with
    gap := ' ' :: g.gap
    blank := ⟨List.cons_ne_nil ' ' g.gap, List.forall_mem_cons.mpr ⟨rfl, g.blank.blank⟩⟩ }

theorem mem_texts {gs : List Gapped} : ∀ c ∈ texts gs, isWord c = true ∨ isBlank c = true := by
  intro c hc
  obtain ⟨g, _, hg⟩ := List.mem_flatMap.mp hc
  obtain hc | hc := List.mem_append.mp hg
  · exact Or.inr (g.blank.blank c hc)
  · exact Or.inl (g.chars c hc)

/-- White space stands behind each word, if it stands behind the last one. -/
theorem edge_texts (gs : List Gapped) {rest : Text}
    (hrest : ∀ c, rest.head? = some c → isBlank c = true) :
    ∀ c, (texts gs ++ rest).head? = some c → isBlank c = true := by
  cases gs with
  | nil => exact hrest
  | cons g gs =>
      obtain ⟨b, more, hhead, hb⟩ := g.blank.head (g.word ++ (texts gs ++ rest))
      have hsplit : texts (g :: gs) ++ rest = g.gap ++ (g.word ++ (texts gs ++ rest)) := by
        simp [texts_cons, text]
      rw [hsplit, hhead]
      rintro _ ⟨⟩
      exact hb

end Gapped

namespace Pattern

/-! ### Whole words -/

theorem isWordAt_of_blank {rest : Text} (h : ∀ c, rest.head? = some c → isBlank c = true) :
    isWordAt rest.head? = false := by
  cases rest with
  | nil => rfl
  | cons c rest => exact Unicode.isWord_of_isBlank (h c rfl)

/-- Texts to be found as whole words. -/
def WholeWords (ks : List Text) : Prop :=
  ∀ k ∈ ks, k ≠ [] ∧ ∀ c ∈ k, isWord c = true

instance : DecidablePred WholeWords :=
  fun ks => inferInstanceAs (Decidable (∀ k ∈ ks, k ≠ [] ∧ ∀ c ∈ k, isWord c = true))

section

variable {ks : List Text} (hks : WholeWords ks) (g : Gapped) {rest : Text}
  (hrest : ∀ c, rest.head? = some c → isBlank c = true)

include hks hrest

/-- Of texts with an edge behind them the one is found that is the whole word. -/
theorem wholeWord_of_run {a b : Attempt} (hafter : a.after = g.word ++ rest) {onward : Onward}
    (h : (anyOf (ks.map exactly)).run a (fun c => wordEdge.run c onward) = some b) :
    g.word ∈ ks ∧ onward (a.take g.word rest) = some b := by
  obtain ⟨_, hp, hrun⟩ := run_anyOf_eq_some h
  obtain ⟨k, hk, rfl⟩ := List.mem_map.mp hp
  obtain ⟨hne, hword⟩ := hks k hk
  obtain ⟨more, hmore⟩ := run_exactly_eq_some hrun
  rw [Comment.run_exactly hmore.symm] at hrun
  obtain ⟨hedge, honward⟩ := run_wordEdge_some.mp hrun
  rw [Attempt.take_before, Attempt.take_after, Text.isWordAt_reverse hne hword] at hedge
  have hmore' : isWordAt more.head? = false := Bool.eq_false_iff.mpr (Ne.symm hedge)
  have hsplit : g.word ++ rest = k ++ more := hafter.symm.trans hmore.symm
  obtain rfl := Text.word_unique hsplit g.chars hword (isWordAt_of_blank hrest) hmore'
  obtain rfl := List.append_cancel_left hsplit
  exact ⟨hk, honward⟩

theorem run_wholeWord (hmem : g.word ∈ ks) {a : Attempt} (hafter : a.after = g.word ++ rest)
    (onward : Onward) :
    (anyOf (ks.map exactly)).run a (fun c => wordEdge.run c onward) =
      onward (a.take g.word rest) := by
  cases hrun : (anyOf (ks.map exactly)).run a (fun c => wordEdge.run c onward) with
  | some b => exact (wholeWord_of_run hks g hrest hafter hrun).2.symm
  | none =>
      by_contra honward
      have hedge : isWordAt (a.take g.word rest).before.head? ≠
          isWordAt (a.take g.word rest).after.head? := by
        rw [Attempt.take_before, Attempt.take_after,
          Text.isWordAt_reverse g.nonempty g.chars, isWordAt_of_blank hrest]
        exact Bool.noConfusion
      refine run_anyOf_ne_none (List.mem_map_of_mem hmem) ?_ hrun
      rw [Comment.run_exactly hafter, run_wordEdge hedge]
      exact Ne.symm honward

theorem run_wholeWord_none (hmem : g.word ∉ ks) {a : Attempt} (hafter : a.after = g.word ++ rest)
    (onward : Onward) :
    (anyOf (ks.map exactly)).run a (fun c => wordEdge.run c onward) = none :=
  Option.eq_none_iff_forall_ne_some.mpr fun _ hrun =>
    hmem (wholeWord_of_run hks g hrest hafter hrun).1

end

end Pattern

namespace Classification

open Gapped (texts texts_cons edge_texts)

/-! ### Filler words and counts -/

def fillerWords : List Text :=
  ["SESSION", "FULL", "STORAGE", "ENGINE"].map String.toList

def clauseWords : List Text :=
  ["FOR", "FROM", "LIKE", "WHERE", "LIMIT", "IN"].map String.toList

theorem wholeWords_filler : WholeWords fillerWords := by
  decide

theorem wholeWords_clause : WholeWords clauseWords := by
  decide

section

variable (g : Gapped) {rest : Text} (hrest : ∀ c, rest.head? = some c → isBlank c = true)
  (before : Text)

include hrest

theorem turns_filler_kept (hmem : g.word ∉ fillerWords) :
    Turns showFiller [' '] before g.text rest g.text :=
  turns_behind_blanks (q := anyOf (fillerWords.map exactly) ++ wordEdge) (fun _ _ => rfl)
    g.blank.blank g.nonempty g.nonblank
    (fun _ _ hafter => run_wholeWord_none wholeWords_filler g hrest hmem hafter _) [' '] before

theorem turns_filler_written (hmem : g.word ∈ fillerWords) :
    Turns showFiller [' '] before g.text rest [' '] := by
  have hmatch : showFiller.matchAt? ⟨before, g.text ++ rest⟩ =
      some ⟨⟨before, g.text ++ rest⟩, g.text.length, []⟩ := by
    have hsplit : g.text ++ rest = g.gap ++ (g.word ++ rest) := List.append_assoc _ _ _
    have hrun : ∀ a : Attempt, a.after = g.text ++ rest →
        showFiller.run a some = some (a.take g.text rest) := by
      intro a hafter
      change (blanks.run a fun b => (anyOf (fillerWords.map exactly)).run b fun c =>
        wordEdge.run c some) = _
      rw [run_blanks g.blank (Text.head_nonblank g.nonblank g.nonempty rest)
          (hafter.trans hsplit),
        run_wholeWord wholeWords_filler g hrest hmem rfl, Attempt.take_take]
      rfl
    rw [matchAt?, hrun _ rfl]
    simp
  exact turns_hit hmatch rfl (by simp [Gapped.text, g.nonempty])

theorem turns_count (hcount : ¬ "COUNT".toList <+: g.word) :
    Turns showCount [] before g.text rest g.text := by
  refine turns_behind_blanks (q := exactly "COUNT".toList ++ (someOf (· != ')') ++ char ')'))
    (fun _ _ => rfl) g.blank.blank g.nonempty g.nonblank (fun a onward hafter => ?_) [] before
  refine Option.eq_none_iff_forall_ne_some.mpr fun b hrun => ?_
  obtain ⟨more, hmore⟩ := run_exactly_eq_some hrun
  rw [hafter] at hmore
  exact hcount (Text.prefix_of_edge hmore.symm (by decide) (isWordAt_of_blank hrest))

end

section

variable {rest : Text} (hrest : ∀ c, rest.head? = some c → isBlank c = true)

include hrest

/-- Filler words leave white space in front of the next word. -/
theorem turns_fillers (gs : List Gapped) {last : Gapped} (hlast : last.word ∉ fillerWords)
    (before : Text) :
    ∃ gs' : List Gapped,
      gs'.map (·.word) = ((gs ++ [last]).map (·.word)).filter (!fillerWords.contains ·) ∧
      Turns showFiller [' '] before (texts (gs ++ [last])) rest (texts gs') := by
  induction gs generalizing before with
  | nil =>
      refine ⟨[last], by simp [hlast], ?_⟩
      have hturns := turns_filler_kept last hrest before hlast
      simpa [texts] using hturns
  | cons g gs ih =>
      obtain ⟨gs', hwords, hturns⟩ := ih (g.text.reverse ++ before)
      have hedge := edge_texts (gs ++ [last]) hrest
      rw [List.cons_append, texts_cons]
      by_cases hmem : g.word ∈ fillerWords
      · obtain ⟨next, more, rfl⟩ : ∃ next more, gs' = next :: more := by
          refine List.exists_cons_of_ne_nil ?_
          rintro rfl
          simp [hlast] at hwords
        refine ⟨next.spaced :: more, ?_, ?_⟩
        · simpa [hmem, Gapped.spaced] using hwords
        · exact (turns_filler_written g hedge before hmem).append hturns
      · refine ⟨g :: gs', by simp [hmem, hwords], ?_⟩
        exact (turns_filler_kept g hedge before hmem).append hturns

/-- A pass that leaves each word with the white space in front of it leaves them all. -/
theorem turns_kept {p : Pattern} {r : Text} {gs : List Gapped}
    (hkept : ∀ g ∈ gs, ∀ (before : Text) {rest : Text},
      (∀ c, rest.head? = some c → isBlank c = true) → Turns p r before g.text rest g.text)
    (before : Text) : Turns p r before (texts gs) rest (texts gs) := by
  induction gs generalizing before with
  | nil => exact turns_nil _ _ _ _
  | cons g gs ih =>
      obtain ⟨hg, hgs⟩ := List.forall_mem_cons.mp hkept
      rw [texts_cons]
      exact (hg before (edge_texts gs hrest)).append (ih hgs _)

theorem turns_counts {gs : List Gapped} (hcount : ∀ g ∈ gs, ¬ "COUNT".toList <+: g.word)
    (before : Text) : Turns showCount [] before (texts gs) rest (texts gs) :=
  turns_kept hrest (fun g hg before _ hedge => turns_count g hedge before (hcount g hg)) before

end

/-! ### Clauses -/

theorem turns_clause_kept (g : Gapped) {rest : Text}
    (hrest : ∀ c, rest.head? = some c → isBlank c = true) (hmem : g.word ∉ clauseWords)
    (before : Text) : Turns showClause [] before g.text rest g.text :=
  turns_behind_blanks (q := anyOf (clauseWords.map exactly) ++ (wordEdge ++ someOf anyChar))
    (fun _ _ => rfl) g.blank.blank g.nonempty g.nonblank (fun _ _ hafter =>
      run_wholeWord_none wholeWords_clause g hrest hmem hafter _) [] before

section

variable {rest : Text} (hrest : ∀ c, rest.head? = some c → isBlank c = true) (hne : rest ≠ [])

include hrest hne

theorem turns_clause_cut (g : Gapped) (hmem : g.word ∈ clauseWords) (before : Text) :
    Turns showClause [] before (g.text ++ rest) [] [] := by
  have hmatch : showClause.matchAt? ⟨before, g.text ++ rest⟩ =
      some ⟨⟨before, g.text ++ rest⟩, (g.text ++ rest).length, []⟩ := by
    have hsplit : g.text ++ rest = g.gap ++ (g.word ++ rest) := List.append_assoc _ _ _
    have hrun : ∀ a : Attempt, a.after = g.text ++ rest →
        showClause.run a some = some (a.take (g.text ++ rest) []) := by
      intro a hafter
      have hany : ∀ c ∈ rest, anyChar c = true := fun _ _ => rfl
      have hend : ∀ c, ([] : Text).head? = some c → anyChar c = false := fun c hc => nomatch hc
      change (blanks.run a fun b => (anyOf (clauseWords.map exactly)).run b fun c =>
        wordEdge.run c fun d => (someOf anyChar).run d some) = _
      rw [run_blanks g.blank (Text.head_nonblank g.nonblank g.nonempty rest)
          (hafter.trans hsplit),
        run_wholeWord wholeWords_clause g hrest hmem rfl,
        run_someOf hne hany hend (List.append_nil rest).symm, Attempt.take_take,
        Attempt.take_take, hsplit]
    rw [matchAt?, hrun _ rfl]
    simp
  rw [← List.append_nil (g.text ++ rest)] at hmatch
  exact turns_hit hmatch (by simp) (by simp [hne])

/-- The first word that opens a clause goes with all that follows it. -/
theorem turns_clause {gs : List Gapped} (h : ∃ g ∈ gs, g.word ∈ clauseWords) (before : Text) :
    Turns showClause [] before (texts gs ++ rest) []
      (texts (gs.takeWhile (!clauseWords.contains ·.word))) := by
  induction gs generalizing before with
  | nil =>
      obtain ⟨g, hg, _⟩ := h
      cases hg
  | cons g gs ih =>
      have hedge := edge_texts gs hrest
      have hbehind : texts gs ++ rest ≠ [] := List.append_ne_nil_of_right_ne_nil _ hne
      rw [texts_cons, List.append_assoc]
      by_cases hmem : g.word ∈ clauseWords
      · rw [List.takeWhile_cons_of_neg (by simp [hmem])]
        exact turns_clause_cut hedge hbehind g hmem before
      · obtain ⟨g', hg', hopens⟩ := h
        obtain rfl | hg' := List.mem_cons.mp hg'
        · exact absurd hopens hmem
        · rw [List.takeWhile_cons_of_pos (by simp [hmem]), texts_cons]
          have hkept := turns_clause_kept g hedge hmem before
          rw [← List.append_nil (texts gs ++ rest)] at hkept
          exact hkept.append (ih ⟨g', hg', hopens⟩ _)

end

/-! ### The words of the phrase -/

theorem replaceFirst_texts (gs : List Gapped) :
    showHead.replaceFirst (·.group 0) ("SHOW".toList ++ texts gs) =
      "SHOW".toList ++ texts (gs.take 2) := by
  have hfront : ∀ (g : Gapped) (rest : Text) (onward : Onward),
      (∀ c, rest.head? = some c → isBlank c = true) →
      (exactly "SHOW".toList).run (.start (.start ("SHOW".toList ++ (g.text ++ rest))))
          (fun b => nextRun.run b onward) =
        onward ((Attempt.start (.start ("SHOW".toList ++ (g.text ++ rest)))).take
          ("SHOW".toList ++ g.text) rest) := by
    intro g rest onward hrest
    rw [Comment.run_exactly rfl, run_nextRun g.blank g.words hrest (List.append_assoc _ _ _),
      Attempt.take_take]
    rfl
  match gs with
  | [] => exact replaceFirst_of_uncut fun b more hsplit => by cases hsplit
  | [g] =>
      have hnil : texts [g] = g.text ++ [] := List.flatMap_cons
      have hrun : showHead.replaceFirst (·.group 0) ("SHOW".toList ++ g.text ++ []) =
          "SHOW".toList ++ g.text := by
        refine replaceFirst_showHead ?_
        rw [List.append_assoc, run_showHead, hfront g [] _ (fun _ hc => nomatch hc),
          Pattern.optional, run_or, run_nextRun_none (by simp)]
        rfl
      rw [List.append_assoc] at hrun
      rw [List.take_of_length_le (by simp), hnil, hrun, List.append_nil]
  | g :: g' :: gs =>
      have hedge : ∀ gs, ∀ c, (texts gs).head? = some c → isBlank c = true := by
        intro gs
        rw [← List.append_nil (texts gs)]
        exact edge_texts gs fun _ hc => nomatch hc
      have hsplit : "SHOW".toList ++ (g.text ++ g'.text) ++ texts gs =
          "SHOW".toList ++ (g.text ++ texts (g' :: gs)) := by
        simp [texts_cons]
      have htake : texts ((g :: g' :: gs).take 2) = g.text ++ g'.text := by
        simp [texts]
      have hrun : showHead.replaceFirst (·.group 0)
          ("SHOW".toList ++ (g.text ++ g'.text) ++ texts gs) =
          "SHOW".toList ++ (g.text ++ g'.text) := by
        refine replaceFirst_showHead ?_
        rw [hsplit, run_showHead, hfront g _ _ (hedge _), Pattern.optional, run_or,
          run_nextRun g'.blank g'.words (hedge gs) (by simp [texts_cons, Gapped.text]),
          Attempt.take_take]
        simp [Gapped.text]
      rw [htake, texts_cons, ← hsplit, hrun]

theorem turns_texts (gs : List Gapped) (before : Text) :
    Turns blanks [' '] before (texts gs) [] ((gs.map (·.word)).flatMap (' ' :: ·)) := by
  induction gs generalizing before with
  | nil => exact turns_nil _ _ _ _
  | cons g gs ih =>
      rw [texts_cons, List.map_cons, List.flatMap_cons]
      exact (turns_next_word g.blank g.words before _).append (ih _)

/-- What is left of a SHOW statement is cut down to its first two words. -/
theorem showPhrase_of_texts {t : Text} {gs : List Gapped}
    (h : shortened t = "SHOW".toList ++ texts gs) :
    showPhrase t = Text.spaced ("SHOW".toList :: (gs.map (·.word)).take 2) := by
  rw [showPhrase_eq, h, replaceFirst_texts, Text.spaced_cons, ← List.map_take]
  exact ((turns_show [] _).append (turns_texts _ _)).replaceAll

/-! ### The passes in front of LIKE -/

/-- The words in front of LIKE that are neither filler nor in a clause. -/
def keptWords (ws : List Text) : List Text :=
  (ws.filter (!fillerWords.contains ·)).takeWhile (!clauseWords.contains ·)

theorem keptWords_append {w : Text} (hw : w ∈ clauseWords) (hfiller : w ∉ fillerWords)
    (ws : List Text) : keptWords (ws ++ [w]) = keptWords ws := by
  have hstop : ∀ vs : List Text, (vs ++ [w]).takeWhile (!clauseWords.contains ·) =
      vs.takeWhile (!clauseWords.contains ·) := by
    intro vs
    induction vs with
    | nil => exact List.takeWhile_cons_of_neg (by simp [hw])
    | cons v vs ih => rw [List.cons_append, List.takeWhile_cons, List.takeWhile_cons, ih]
  have hkept : [w].filter (!fillerWords.contains ·) = [w] :=
    List.filter_cons_of_pos (by simp [hfiller])
  rw [keptWords, keptWords, List.filter_append, hkept, hstop]

section

variable {p q : Pattern} (hp : ∀ a onward, p.run a onward = blanks.run a fun b => q.run b onward)

include hp

theorem turns_behind_show (r before rest : Text) :
    Turns p r before "SHOW".toList rest "SHOW".toList := by
  refine turns_of_chars (P := fun c => isBlank c = false) (fun hc => matchAt?_eq_none.mpr ?_)
    (by decide)
  rw [hp]
  refine run_blanks_none ?_ _
  rintro _ ⟨⟩
  exact hc

theorem replaceAll_show {r : Text} {gs gs' : List Gapped}
    (hturns : Turns p r "SHOW".toList.reverse (texts gs) [] (texts gs')) :
    p.replaceAll (fun _ => r) ("SHOW".toList ++ texts gs) = "SHOW".toList ++ texts gs' := by
  rw [← List.append_nil "SHOW".toList.reverse] at hturns
  exact ((turns_behind_show hp r [] _).append hturns).replaceAll

/-- A pass that finds nothing in front of the quote changes the words between SHOW and the quote,
and what stands behind the quote. -/
theorem replaceAll_between (hquote : ∀ (a : Attempt) (onward : Onward) (more : Text),
      a.after = '\'' :: more → q.run a onward = none)
    {r seen : Text} {gs gs' : List Gapped}
    (hturns : Turns p r "SHOW".toList.reverse (texts gs) (" '".toList ++ seen) (texts gs')) :
    ∃ seen', p.replaceAll (fun _ => r) ("SHOW".toList ++ (texts gs ++ (" '".toList ++ seen))) =
      "SHOW".toList ++ (texts gs' ++ (" '".toList ++ seen')) := by
  have hlast : ∀ before, Turns p r before ([' '] ++ ['\'']) seen ([' '] ++ ['\'']) :=
    turns_behind_blanks hp (by decide) (by decide) (by decide)
      (fun a onward hafter => hquote a onward seen hafter) r
  have hall := (turns_behind_show hp r [] _).append (hturns.append (hlast _))
  rw [Turns, ← replaceAll_const] at hall
  simp only [List.append_assoc] at hall
  exact ⟨_, hall⟩

end

theorem head?_quote (seen : Text) :
    ∀ c, (" '".toList ++ seen).head? = some c → isBlank c = true := by
  rintro _ ⟨⟩
  rfl

/-- What the passes over filler words and counts leave in front of the quote. -/
theorem replaced_of_texts {t seen : Text} {gs : List Gapped} {like : Gapped}
    (hfiller : like.word ∉ fillerWords)
    (hcount : ∀ g ∈ gs ++ [like], ¬ "COUNT".toList <+: g.word)
    (h : t = "SHOW".toList ++ (texts (gs ++ [like]) ++ (" '".toList ++ seen))) :
    ∃ (gs' : List Gapped) (seen' : Text),
      gs'.map (·.word) = ((gs ++ [like]).map (·.word)).filter (!fillerWords.contains ·) ∧
      showCount.removeAll (showFiller.replaceAll (fun _ => [' ']) t) =
        "SHOW".toList ++ (texts gs' ++ (" '".toList ++ seen')) := by
  obtain ⟨gs', hwords, hfillers⟩ :=
    turns_fillers (head?_quote seen) gs hfiller "SHOW".toList.reverse
  obtain ⟨seen₁, h₁⟩ := replaceAll_between (q := anyOf (fillerWords.map exactly) ++ wordEdge)
    (fun _ _ => rfl) (fun _ _ _ hafter => run_anyOf_none (w := ['\'']) (by decide) hafter _)
    hfillers
  have hcount' : ∀ g ∈ gs', ¬ "COUNT".toList <+: g.word := by
    intro g hg
    have hmem := hwords ▸ List.mem_map_of_mem (f := Gapped.word) hg
    obtain ⟨g', hg', heq⟩ := List.mem_map.mp (List.mem_of_mem_filter hmem)
    rw [← heq]
    exact hcount g' hg'
  obtain ⟨seen₂, h₂⟩ := replaceAll_between
    (q := exactly "COUNT".toList ++ (someOf (· != ')') ++ char ')')) (fun _ _ => rfl)
    (fun _ _ _ hafter => Comment.run_exactly_none (by decide) hafter _)
    (turns_counts (head?_quote seen₁) hcount' "SHOW".toList.reverse)
  refine ⟨gs', seen₂, hwords, ?_⟩
  rw [h, h₁, removeAll, h₂]

theorem shortened_of_texts {t seen : Text} {gs : List Gapped} {like : Gapped}
    (hlike : like.word = "LIKE".toList) (hcount : ∀ g ∈ gs, ¬ "COUNT".toList <+: g.word)
    (h : Unicode.upper t = "SHOW".toList ++ (texts (gs ++ [like]) ++ (" '".toList ++ seen))) :
    ∃ gs' : List Gapped, gs'.map (·.word) = keptWords (gs.map (·.word)) ∧
      shortened t = "SHOW".toList ++ texts gs' := by
  have hfiller : like.word ∉ fillerWords := by
    rw [hlike]
    decide
  have hclause : like.word ∈ clauseWords := by
    rw [hlike]
    decide
  have hcounts : ∀ g ∈ gs ++ [like], ¬ "COUNT".toList <+: g.word := by
    refine List.forall_mem_append.mpr ⟨hcount, List.forall_mem_singleton.mpr ?_⟩
    rw [hlike]
    decide
  obtain ⟨gs', seen', hwords, hreplaced⟩ := replaced_of_texts hfiller hcounts h
  have hopens : ∃ g ∈ gs', g.word ∈ clauseWords := by
    have hmem : like.word ∈ gs'.map (·.word) := by
      rw [hwords]
      simp [hfiller]
    obtain ⟨g, hg, hword⟩ := List.mem_map.mp hmem
    exact ⟨g, hg, hword ▸ hclause⟩
  have hshow := turns_behind_show (p := showClause)
    (q := anyOf (clauseWords.map exactly) ++ (wordEdge ++ someOf anyChar)) (fun _ _ => rfl) [] []
  have hcut := ((hshow _).append (turns_clause (head?_quote seen') (by simp) hopens _)).replaceAll
  refine ⟨gs'.takeWhile (!clauseWords.contains ·.word), ?_, ?_⟩
  · rw [← keptWords_append hclause hfiller, keptWords, ← List.map_singleton, ← List.map_append,
      ← hwords, List.takeWhile_map]
    rfl
  · rw [shortened, hreplaced, removeAll, hcut]

/-! ### The statement -/

theorem showing?_of_texts {t seen : Text} {gs : List Gapped} (hne : gs ≠ [])
    (ht : t = "SHOW".toList ++ (texts gs ++ seen)) :
    showing? t = some (.showing (showPhrase t)) := by
  obtain ⟨g, gs, rfl⟩ := List.exists_cons_of_ne_nil hne
  have hsplit : t = "SHOW".toList ++ (g.gap ++ (g.word ++ (texts gs ++ seen))) := by
    simp [ht, texts_cons, Gapped.text]
  refine if_pos ?_
  rw [occursIn, find_anchored opening_showOpening.anchored]
  change (((textStart ++ maybeBlanks).run (.start (.start t)) fun b =>
    (keyword "SHOW".toList).run b fun c => blanks.run c some).map _).isSome = true
  have hdrop : t.dropWhile isBlank = t := by
    rw [hsplit]
    exact List.dropWhile_cons_of_neg (by decide)
  rw [run_leading, run_keyword rfl (hdrop.trans hsplit), run_blanks g.blank
    (Text.head_nonblank g.nonblank g.nonempty _) rfl]
  rfl

/-- A statement that is SHOW and words without its comments is claimed as a SHOW statement. -/
theorem ofStatement_of_texts {t seen : Text} {gs : List Gapped} (hne : gs ≠ [])
    (hraw : ofRaw? t = none) (herase : Comment.erase t = "SHOW".toList ++ (texts gs ++ seen)) :
    ofStatement t = .showing (showPhrase (Comment.erase t)) := by
  have hshow := showing?_of_texts hne herase
  rw [ofStatement, hraw]
  simp only [ofBare?, List.findSome?_cons, hshow]

end Classification

open Classification (keptWords)

/-- A SHOW statement with a pattern behind LIKE. -/
def showLike (head : List Gapped) (gap body : Text) : Text :=
  "SHOW".toList ++ (Gapped.texts head ++ (gap ++ ("LIKE '".toList ++ (body ++ ['\'']))))

namespace Unicode

theorem upper_of_ascii {w : Text} (h : ∀ c ∈ w, c.toNat < 0x80) :
    upper w = w.map Char.toUpper := by
  induction w with
  | nil => rfl
  | cons c w ih =>
      obtain ⟨hc, hw⟩ := List.forall_mem_cons.mp h
      change upperChar c ++ upper w = _
      rw [upperChar, if_pos hc, ih hw]
      rfl

end Unicode

theorem upper_texts {gs : List Gapped} (h : ∀ g ∈ gs, ∀ c ∈ g.word, c.toNat < 0x80) :
    ∃ gs' : List Gapped, Unicode.upper (Gapped.texts gs) = Gapped.texts gs' ∧
      gs'.map (·.word) = gs.map (·.word.map Char.toUpper) := by
  induction gs with
  | nil => exact ⟨[], rfl, rfl⟩
  | cons g gs ih =>
      obtain ⟨hg, hgs⟩ := List.forall_mem_cons.mp h
      obtain ⟨gs', hupper, hwords⟩ := ih hgs
      have hchars : ∀ c ∈ g.word.map Char.toUpper, isWord c = true := by
        intro c hc
        obtain ⟨d, hd, rfl⟩ := List.mem_map.mp hc
        rw [Unicode.isWord_toUpper]
        exact g.chars d hd
      let capital : Gapped :=
        ⟨g.gap, g.word.map Char.toUpper, g.blank, by simp [g.nonempty], hchars⟩
      refine ⟨capital :: gs', ?_, by rw [List.map_cons, List.map_cons, hwords]⟩
      rw [Gapped.texts_cons, Unicode.upper_append, Gapped.text, Unicode.upper_append,
        Unicode.upper_of_blank g.blank.blank, Unicode.upper_of_ascii hg, hupper]
      rfl

theorem not_quote_of_word {c : Char} (h : isWord c = true ∨ isBlank c = true) :
    Comment.isQuote c = false := by
  have hquotes : ∀ q ∈ "'\"\x60".toList, ¬ (isWord q = true ∨ isBlank q = true) := by decide
  refine Bool.eq_false_iff.mpr fun hquote => ?_
  simp only [Comment.isQuote, Bool.or_eq_true, beq_iff_eq] at hquote
  obtain (rfl | rfl) | rfl := hquote <;> exact hquotes _ (by decide) h

/-- The passes over comments leave the words in front of the pattern and its first quote. -/
theorem erase_showLike {head : List Gapped} (like : Gapped) (hlike : like.word = "LIKE".toList)
    {body : Text} (hbody : '\'' ∉ body) :
    ∃ seen, Comment.erase (showLike head like.gap body) =
      "SHOW".toList ++ (Gapped.texts (head ++ [like]) ++ (" '".toList ++ seen)) := by
  have hsplit : showLike head like.gap body =
      "SHOW".toList ++ (Gapped.texts (head ++ [like]) ++ [' ']) ++ '\'' :: (body ++ ['\'']) := by
    simp [showLike, Gapped.texts, Gapped.text, hlike]
  have hfront : ∀ c ∈ "SHOW".toList ++ (Gapped.texts (head ++ [like]) ++ [' ']),
      isWord c = true ∨ isBlank c = true := by
    intro c hc
    obtain hc | hc := List.mem_append.mp hc
    · have hshow : ∀ d ∈ "SHOW".toList, isWord d = true ∨ isBlank d = true := by decide
      exact hshow c hc
    · obtain hc | hc := List.mem_append.mp hc
      · exact Gapped.mem_texts c hc
      · rw [List.mem_singleton.mp hc]
        exact Or.inr rfl
  obtain ⟨seen, herase⟩ := Comment.erase_last_literal (b := body)
    (Comment.unmarked_of_words hfront) (fun c hc => not_quote_of_word (hfront c hc)) hbody
  refine ⟨seen, ?_⟩
  rw [hsplit, herase]
  simp

/-- The pattern is not among what decides the fingerprint. -/
theorem fingerprint_showLike {head : List Gapped} {gap body : Text} (hgap : Blank gap)
    (hascii : ∀ g ∈ head, ∀ c ∈ g.word, c.isAlphanum = true ∨ c = '_')
    (hcount : ∀ g ∈ head, ¬ "COUNT".toList <+: g.word.map Char.toUpper)
    (hbody : '\'' ∉ body) :
    fingerprint (showLike head gap body) =
      Fingerprint.unifySynonyms (Text.spaced ("SHOW".toList ::
        (keptWords (head.map (·.word.map Char.toUpper))).take 2)) := by
  let like : Gapped := ⟨gap, "LIKE".toList, hgap, by decide, by decide⟩
  obtain ⟨seen, herase⟩ : ∃ seen, Comment.erase (showLike head gap body) =
      "SHOW".toList ++ (Gapped.texts (head ++ [like]) ++ (" '".toList ++ seen)) :=
    erase_showLike like rfl hbody
  have hraw : Classification.ofRaw? (showLike head gap body) = none :=
    Classification.ofRaw?_eq_none (k := "SHOW".toList) ⟨"SHOW".toList, _, rfl, rfl⟩ (by decide)
  have hshape : Classification.ofStatement (showLike head gap body) =
      .showing (Classification.showPhrase (Comment.erase (showLike head gap body))) :=
    Classification.ofStatement_of_texts (by simp) hraw herase
  obtain ⟨head', hupper, hwords⟩ := upper_texts fun g hg c hc =>
    Unicode.toNat_lt_of_isAlphanum (hascii g hg c hc)
  have hlike : Unicode.upper like.text = like.text := by
    rw [Gapped.text, Unicode.upper_append, Unicode.upper_of_blank hgap.blank]
    rfl
  have hall : Unicode.upper (Comment.erase (showLike head gap body)) =
      "SHOW".toList ++ (Gapped.texts (head' ++ [like]) ++ (" '".toList ++ Unicode.upper seen)) := by
    have happend : ∀ gs, Gapped.texts (gs ++ [like]) = Gapped.texts gs ++ like.text := by
      simp [Gapped.texts]
    rw [herase, happend, happend]
    simp only [Unicode.upper_append, hupper, hlike]
    rfl
  have hcount' : ∀ g ∈ head', ¬ "COUNT".toList <+: g.word := by
    intro g hg
    obtain ⟨g', hg', heq⟩ := List.mem_map.mp (hwords ▸ List.mem_map_of_mem (f := Gapped.word) hg)
    rw [← heq]
    exact hcount g' hg'
  obtain ⟨gs, hkept, hshort⟩ := Classification.shortened_of_texts rfl hcount' hall
  have hphrase := Classification.showPhrase_of_texts hshort
  rw [hkept, hwords] at hphrase
  have hstarts : "SHOW".toList <+: Classification.showPhrase
      (Comment.erase (showLike head gap body)) := by
    rw [hphrase, Text.spaced_cons]
    exact List.prefix_append _ _
  rw [fingerprint, hshape, Classification.compose_showing hstarts, hphrase]

/-- SHOW statements that differ only in the pattern behind LIKE share a fingerprint. -/
theorem fingerprint_eq_of_pattern {head : List Gapped} {gap : Text} (hgap : Blank gap)
    (hascii : ∀ g ∈ head, ∀ c ∈ g.word, c.isAlphanum = true ∨ c = '_')
    (hcount : ∀ g ∈ head, ¬ "COUNT".toList <+: g.word.map Char.toUpper)
    {body body' : Text} (hbody : '\'' ∉ body) (hbody' : '\'' ∉ body') :
    fingerprint (showLike head gap body) = fingerprint (showLike head gap body') := by
  rw [fingerprint_showLike hgap hascii hcount hbody,
    fingerprint_showLike hgap hascii hcount hbody']

/-- Comments, counts, clauses, line breaks and quotes of other kinds within the pattern make no
difference. -/
theorem fingerprint_eq_of_pattern_marked :
    let word (gap word : String) (h : (gap.toList ≠ [] ∧ ∀ c ∈ gap.toList, isBlank c = true) ∧
        word.toList ≠ [] ∧ ∀ c ∈ word.toList, isWord c = true) : Gapped :=
      ⟨gap.toList, word.toList, ⟨h.1.1, h.1.2⟩, h.2.1, h.2.2⟩
    let head := [word " " "full" (by decide), word "\t" "Index_2" (by decide)]
    let body := "\x60*/ /*!40000 x*/ \"/* COUNT(a)\n-- from \x60t where \\".toList
    fingerprint (showLike head [' '] body) = fingerprint (showLike head [' '] ['%']) := by
  intro word head body
  exact fingerprint_eq_of_pattern Text.blank_space (by decide) (by decide) (by decide) (by decide)

end QueryDigest
