import QueryDigest.Proofs.Pattern.Outline
import QueryDigest.Proofs.Pattern.Words
import QueryDigest.Statement.TableClause

/-!
The search for table clauses. Its result depends on the place it starts at and on nothing else, so
that it can be followed through a text piece by piece: over characters and words where no clause
starts, and from the start of a clause to its end.
-/

namespace QueryDigest.TableClause

open Pattern
open Unicode (foldLetter isBlank isWord)

/-! ### Where a clause starts -/

/-- The words that a clause starts with. -/
def anchors : List Text :=
  ["FROM".toList, "JOIN".toList, "UPDATE".toList, "INTO".toList]

/-- A clause behind its anchor. -/
def behindAnchor : Pattern :=
  wordEdge ++ (maybeBlanks ++ (optional (char '(') ++ .group nameList))

theorem run_pattern (a : Attempt) (onward : Onward) :
    pattern.run a onward = wordEdge.run a fun b => (keywords anchors).run b fun c =>
      behindAnchor.run (c.close b.passed) onward :=
  rfl

theorem word_of_anchor {k w : Text} (hk : k ∈ anchors)
    (hw : w.map foldLetter = k.map foldLetter) : w ≠ [] ∧ ∀ c ∈ w, isWord c = true := by
  have hanchors : ∀ k ∈ anchors, k ≠ [] ∧ (k.map foldLetter).all Char.isUpper = true := by decide
  obtain ⟨hne, hupper⟩ := hanchors k hk
  exact Text.word_of_fold hw hne hupper

/-- A clause starts with an anchor that is a word of its own, and goes on behind it. -/
theorem clause_runs {before after : Text} {h : Hit}
    (hmatch : pattern.matchAt? ⟨before, after⟩ = some h) :
    isWordAt before.head? = false ∧ ∃ k ∈ anchors, ∃ w rest, after = w ++ rest ∧
      w.map foldLetter = k.map foldLetter ∧ isWordAt rest.head? = false ∧
        ∃ a b : Attempt, a.after = rest ∧ a.passed = w.length ∧
          behindAnchor.run a some = some b ∧ b.passed = h.length := by
  obtain ⟨b, hrun, rfl⟩ := matchAt?_eq_some hmatch
  rw [run_pattern] at hrun
  obtain ⟨hfirst, hrun⟩ := run_wordEdge_some.mp hrun
  obtain ⟨k, hk, w, rest, hafter, hw, hrun⟩ := run_keywords_eq_some hrun
  have hbehind := hrun
  rw [behindAnchor, run_append] at hbehind
  obtain ⟨hlast, _⟩ := run_wordEdge_some.mp hbehind
  obtain ⟨hne, hword⟩ := word_of_anchor hk hw
  change after = w ++ rest at hafter
  change isWordAt before.head? ≠ isWordAt after.head? at hfirst
  change isWordAt (w.reverse ++ before).head? ≠ isWordAt rest.head? at hlast
  rw [hafter, Text.isWordAt_head? hne hword] at hfirst
  rw [Text.isWordAt_reverse hne hword] at hlast
  exact ⟨Bool.eq_false_iff.mpr hfirst, k, hk, w, rest, hafter, hw,
    Bool.eq_false_iff.mpr hlast.symm, _, b, rfl, Nat.zero_add _, hrun, rfl⟩

theorem clause_opens {before after : Text} {h : Hit}
    (hmatch : pattern.matchAt? ⟨before, after⟩ = some h) :
    isWordAt before.head? = false ∧ ∃ k ∈ anchors, ∃ w rest, after = w ++ rest ∧
      w.map foldLetter = k.map foldLetter ∧ isWordAt rest.head? = false ∧
        w.length ≤ h.length := by
  obtain ⟨hbefore, k, hk, w, rest, hafter, hw, hrest, a, b, _, hpassed, hrun, hlength⟩ :=
    clause_runs hmatch
  have hmoves := (run_reaches hrun).passed_le
  rw [hpassed, hlength] at hmoves
  exact ⟨hbefore, k, hk, w, rest, hafter, hw, hrest, hmoves⟩

theorem clause_moves {before after : Text} {h : Hit}
    (hmatch : pattern.matchAt? ⟨before, after⟩ = some h) : 0 < h.length := by
  obtain ⟨_, k, hk, w, _, _, hw, _, hlength⟩ := clause_opens hmatch
  exact Nat.lt_of_lt_of_le (List.length_pos_iff.mpr (word_of_anchor hk hw).1) hlength

/-! ### The search from a place on -/

theorem found_moves {place : Cursor} {h : Hit} (hfind : pattern.findFrom place = some h) :
    0 < h.length := by
  obtain ⟨_, _, _, hmatch⟩ := findBetween_some hfind
  exact clause_moves hmatch

theorem length_skip {before after : Text} {h : Hit}
    (hfind : pattern.findBetween before after = some h) {n : Nat} (hn : 0 < n) :
    (h.start.skip n).after.length < after.length := by
  obtain ⟨u, v, rfl, hmatch⟩ := findBetween_some hfind
  obtain ⟨hstart, hlength, hv⟩ := matchAt?_text hmatch
  have hmoves := clause_moves hmatch
  have hlengths := congrArg List.length hv
  rw [hstart]
  simp only [Cursor.skip, List.length_drop, List.length_append] at hlengths ⊢
  omega

/-- More searches than there are characters ahead find no more. -/
theorem listsFrom_most {most most' : Nat} {place : Cursor} (h : place.after.length < most)
    (h' : place.after.length < most') : listsFrom most place = listsFrom most' place := by
  induction most generalizing most' place with
  | zero => cases h
  | succ most ih =>
      cases most' with
      | zero => cases h'
      | succ most' =>
          rw [listsFrom, listsFrom]
          cases hfind : pattern.findFrom place with
          | none => rfl
          | some hit =>
              have hstart := length_skip hfind Nat.one_pos
              have hstop : hit.stop.after.length < _ := length_skip hfind (found_moves hfind)
              have hone : listsFrom most (hit.start.skip 1) = listsFrom most' (hit.start.skip 1) :=
                ih (by omega) (by omega)
              have hclause : listsFrom most hit.stop = listsFrom most' hit.stop :=
                ih (by omega) (by omega)
              simp only [hone, hclause]

/-- The lists of names between the place at which a text stands and its end. -/
def listsBehind (before after : Text) : List Text :=
  listsFrom (after.length + 1) ⟨before, after⟩

theorem listsFrom_eq {most : Nat} {place : Cursor} (h : place.after.length < most) :
    listsFrom most place = listsBehind place.before place.after :=
  listsFrom_most h (Nat.lt_succ_self _)

section

variable {place : Cursor} {h : Hit}

theorem listsBehind_of_none (hfind : pattern.findFrom place = none) :
    listsBehind place.before place.after = [] := by
  rw [listsBehind, listsFrom, hfind]

theorem listsBehind_of_columns (hfind : pattern.findFrom place = some h)
    (hcolumns : updatesColumns h = true) :
    listsBehind place.before place.after =
      listsBehind (h.start.skip 1).before (h.start.skip 1).after := by
  rw [listsBehind, listsFrom, hfind]
  simp only [hcolumns, if_true]
  exact listsFrom_eq (length_skip hfind Nat.one_pos)

theorem listsBehind_of_names (hfind : pattern.findFrom place = some h)
    (hnames : updatesColumns h = false) :
    listsBehind place.before place.after =
      h.group 1 :: listsBehind h.stop.before h.stop.after := by
  rw [listsBehind, listsFrom, hfind]
  simp only [hnames, Bool.false_eq_true, if_false]
  exact congrArg _ (listsFrom_eq (length_skip hfind (found_moves hfind)))

end

theorem listsBehind_nil (before : Text) : listsBehind before [] = [] := by
  have hnone : pattern.findFrom ⟨before, []⟩ = none := by
    cases hfind : pattern.findFrom ⟨before, []⟩ with
    | none => rfl
    | some h => exact absurd (length_skip hfind Nat.one_pos) (Nat.not_lt_zero _)
  exact listsBehind_of_none hnone

theorem listsBehind_skip {before rest : Text} {c : Char}
    (hnone : pattern.matchAt? ⟨before, c :: rest⟩ = none) :
    listsBehind before (c :: rest) = listsBehind (c :: before) rest := by
  have hfind : pattern.findFrom ⟨before, c :: rest⟩ = pattern.findFrom ⟨c :: before, rest⟩ := by
    rw [findFrom, findBetween, hnone]
    rfl
  have hmost : listsFrom (rest.length + 2) ⟨c :: before, rest⟩ = listsBehind (c :: before) rest :=
    listsFrom_eq (Nat.lt_succ_of_lt (Nat.lt_succ_self _))
  rw [← hmost, listsBehind, listsFrom, listsFrom, hfind]
  rfl

theorem listsBehind_hit {before after : Text} {h : Hit}
    (hmatch : pattern.matchAt? ⟨before, after⟩ = some h) (hnames : updatesColumns h = false) :
    listsBehind before after = h.group 1 :: listsBehind h.stop.before h.stop.after := by
  have hfind : pattern.findFrom ⟨before, after⟩ = some h := findBetween_hit hmatch
  exact listsBehind_of_names hfind hnames

/-! ### Over the pieces of a text -/

/-- The search finds the given lists in a text and goes on behind it. -/
def Yields (before u rest : Text) (found : List Text) : Prop :=
  listsBehind before (u ++ rest) = found ++ listsBehind (u.reverse ++ before) rest

theorem Yields.append {before u v rest : Text} {found found' : List Text}
    (hu : Yields before u (v ++ rest) found) (hv : Yields (u.reverse ++ before) v rest found') :
    Yields before (u ++ v) rest (found ++ found') := by
  rw [Yields] at *
  rw [List.append_assoc, hu, hv, List.reverse_append, List.append_assoc, List.append_assoc]

theorem Yields.lists {t : Text} {found : List Text} (h : Yields [] t [] found) :
    TableClause.lists t = found := by
  rwa [Yields, listsBehind_nil, List.append_nil, List.append_nil] at h

theorem yields_of_no_match {before u rest : Text}
    (h : ∀ v c w, u = v ++ c :: w →
      pattern.matchAt? ⟨v.reverse ++ before, c :: (w ++ rest)⟩ = none) :
    Yields before u rest [] := by
  induction u generalizing before with
  | nil => rfl
  | cons c u ih =>
      have hrest : Yields (c :: before) u rest [] := by
        apply ih
        intro v d w hu
        have hnone := h (c :: v) d w (by rw [hu, List.cons_append])
        rwa [List.reverse_cons, List.append_assoc] at hnone
      have hskip : listsBehind before (c :: (u ++ rest)) = listsBehind (c :: before) (u ++ rest) :=
        listsBehind_skip (h [] c u rfl)
      rw [Yields, List.cons_append, hskip, hrest, List.reverse_cons, List.append_assoc]
      rfl

/-- No clause starts with a character outside words. -/
theorem matchAt?_mark {c : Char} (hc : isWord c = false) (before rest : Text) :
    pattern.matchAt? ⟨before, c :: rest⟩ = none := by
  cases hmatch : pattern.matchAt? ⟨before, c :: rest⟩ with
  | none => rfl
  | some h =>
      obtain ⟨_, k, hk, w, rest', hafter, hw, _⟩ := clause_opens hmatch
      obtain ⟨hne, hword⟩ := word_of_anchor hk hw
      have hhead := Text.isWordAt_head? hne hword rest'
      rw [← hafter] at hhead
      exact absurd hhead (Bool.eq_false_iff.mp hc)

theorem Yields.mark {c : Char} (hc : isWord c = false) {before t rest : Text} {found : List Text}
    (h : Yields (c :: before) t rest found) : Yields before (c :: t) rest found := by
  have hskip : listsBehind before (c :: (t ++ rest)) = listsBehind (c :: before) (t ++ rest) :=
    listsBehind_skip (matchAt?_mark hc before (t ++ rest))
  rw [Yields, List.cons_append, hskip, h, List.reverse_cons, List.append_assoc]
  rfl

/-- No clause starts within a word that is not an anchor. -/
theorem yields_word {w : Text} (hword : ∀ c ∈ w, isWord c = true)
    (hother : ∀ k ∈ anchors, w.map foldLetter ≠ k.map foldLetter) (before : Text) {rest : Text}
    (hrest : isWordAt rest.head? = false) : Yields before w rest [] := by
  apply yields_of_no_match
  intro u c v hsplit
  cases hmatch : pattern.matchAt? ⟨u.reverse ++ before, c :: (v ++ rest)⟩ with
  | none => rfl
  | some h =>
      obtain ⟨hbefore, k, hk, w', rest', hafter, hw', hrest', _⟩ := clause_opens hmatch
      cases u with
      | nil =>
          have hw : w = w' := by
            refine Text.word_unique ?_ hword (word_of_anchor hk hw').2 hrest hrest'
            rw [hsplit, ← hafter]
            rfl
          exact absurd (hw ▸ hw') (hother k hk)
      | cons x u =>
          have hu : ∀ e ∈ x :: u, isWord e = true := by
            intro e he
            exact hword e (hsplit ▸ List.mem_append_left _ he)
          rw [Text.isWordAt_reverse (List.cons_ne_nil x u) hu] at hbefore
          cases hbefore

/-! ### Over a clause -/

/-- A text in front of which a list of names ends. -/
structure EndsList (rest : Text) : Prop where
  edge : isWordAt rest.head? = false
  dot : rest.head? ≠ some '.'
  comma : ',' ∉ rest

theorem run_quoted_none {a : Attempt} (h : isWordAt a.after.head? = true) (onward : Onward) :
    Identifier.quoted.run a onward = none := by
  rw [Identifier.quoted, run_append, run_append]
  refine run_char_none (fun hquote => ?_) _
  rw [hquote] at h
  revert h
  decide

theorem run_identifier {w rest : Text} (hne : w ≠ []) (hword : ∀ c ∈ w, isWord c = true)
    (hrest : isWordAt rest.head? = false) (hdot : rest.head? ≠ some '.') {a : Attempt}
    (hafter : a.after = w ++ rest) (onward : Onward) :
    Identifier.pattern.run a onward = onward (a.take w rest) := by
  have hquoted : ∀ onward, Identifier.quoted.run a onward = none :=
    run_quoted_none (hafter ▸ Text.isWordAt_head? hne hword rest)
  have hschema : ∀ onward, (char '.' ++ Identifier.simple).run (a.take w rest) onward = none := by
    intro onward
    rw [run_append]
    exact run_char_none hdot _
  rw [Identifier.pattern, run_append, Identifier.simple, run_or, hquoted, Option.none_or, word,
    run_someOf hne hword (Text.not_word_of_edge hrest) hafter, Pattern.optional, run_or]
  exact (congrArg (Option.or · _) (hschema onward)).trans Option.none_or

/-- An anchor and a list of names that is read to its end, and what stands between them. -/
structure Clause (anchor gap list rest : Text) : Prop where
  anchor : ∃ k ∈ anchors, anchor.map foldLetter = k.map foldLetter
  gap : ∃ blanks, blanks ≠ [] ∧ (∀ c ∈ blanks, isBlank c = true) ∧
    (gap = blanks ∨ gap = blanks ++ ['('])
  word : isWordAt (list ++ rest).head? = true
  reads : ∀ {a b : Attempt} {onward : Onward}, a.after = list ++ rest →
    onward (a.take list rest) = some b → nameList.run a onward = some b

theorem run_behindAnchor {anchor gap list rest : Text} (h : Clause anchor gap list rest)
    {a : Attempt} (hbefore : isWordAt a.before.head? = true)
    (hafter : a.after = gap ++ (list ++ rest)) :
    behindAnchor.run a some =
      some ((a.take (gap ++ list) rest).close (a.passed + gap.length)) := by
  obtain ⟨blanks, hne, hblanks, hgap⟩ := h.gap
  have hgo : ∀ more, a.after = blanks ++ more → (∀ c, more.head? = some c → isBlank c = false) →
      behindAnchor.run a some =
        (Pattern.optional (char '(') ++ .group nameList).run (a.take blanks more) some := by
    intro more hmore hend
    have hedge : isWordAt a.after.head? = false := by
      obtain ⟨c, blanks, rfl⟩ := List.exists_cons_of_ne_nil hne
      rw [hmore]
      exact Unicode.isWord_of_isBlank (hblanks c List.mem_cons_self)
    rw [behindAnchor, run_append, run_wordEdge (by rw [hbefore, hedge]; decide), run_append,
      maybeBlanks, run_allOf hblanks hend hmore]
  have hlist : ∀ b : Attempt, b.after = list ++ rest →
      (Pattern.group nameList).run b some = some ((b.take list rest).close b.passed) :=
    fun b hb => h.reads hb rfl
  have hhead := h.word
  obtain rfl | rfl := hgap
  · have hparen : (list ++ rest).head? ≠ some '(' := by
      intro hc
      rw [hc] at hhead
      revert hhead
      decide
    rw [hgo (list ++ rest) hafter ?_, run_append, Pattern.optional, run_or, run_char_none hparen,
      Option.none_or]
    · refine (hlist _ rfl).trans ?_
      rw [Attempt.take_take]
      rfl
    · intro c hc
      rw [hc] at hhead
      exact Unicode.isBlank_of_isWord hhead
  · rw [List.append_assoc] at hafter
    have hparen : ∀ c, (['('] ++ (list ++ rest)).head? = some c → isBlank c = false := by
      rintro _ ⟨⟩
      decide
    rw [hgo _ hafter hparen, run_append, Pattern.optional, run_or, run_char rfl, hlist _ rfl,
      Option.some_or, Attempt.take_take, Attempt.take_take, Attempt.take_passed]

theorem matchAt?_clause {before anchor gap list rest : Text} (h : Clause anchor gap list rest)
    (hbefore : isWordAt before.head? = false) :
    pattern.matchAt? ⟨before, anchor ++ (gap ++ (list ++ rest))⟩ =
      some ⟨⟨before, anchor ++ (gap ++ (list ++ rest))⟩, (anchor ++ (gap ++ list)).length,
        [(0, anchor.length),
          (anchor.length + gap.length, (anchor ++ (gap ++ list)).length)]⟩ := by
  have hapart : ∀ k ∈ anchors, ∀ k' ∈ anchors, k'.map foldLetter <+: k.map foldLetter ∨
      k.map foldLetter <+: k'.map foldLetter → k' = k := by
    decide
  obtain ⟨k, hk, hanchor⟩ := h.anchor
  obtain ⟨hne, hword⟩ := word_of_anchor hk hanchor
  have hfirst : isWordAt before.head? ≠ isWordAt (anchor ++ (gap ++ (list ++ rest))).head? := by
    rw [hbefore, Text.isWordAt_head? hne hword]
    decide
  have hbehind := run_behindAnchor h (a := (Attempt.take anchor (gap ++ (list ++ rest))
    (.start ⟨before, anchor ++ (gap ++ (list ++ rest))⟩)).close 0)
    (Text.isWordAt_reverse hne hword before) rfl
  rw [matchAt?, run_pattern]
  change Option.map _ (wordEdge.run (.start ⟨before, anchor ++ (gap ++ (list ++ rest))⟩) _) = _
  rw [run_wordEdge hfirst, run_keywords hk hanchor (hapart k hk) rfl]
  change Option.map _ (behindAnchor.run (Attempt.close 0 _) some) = _
  rw [hbehind]
  simp [Attempt.close, Attempt.start]

/-- The keyword and the list of a clause that has been found. -/
theorem groups_clause (before anchor gap list rest : Text) :
    Hit.group ⟨⟨before, anchor ++ (gap ++ (list ++ rest))⟩, (anchor ++ (gap ++ list)).length,
        [(0, anchor.length), (anchor.length + gap.length, (anchor ++ (gap ++ list)).length)]⟩ 0 =
      anchor ∧
    Hit.group ⟨⟨before, anchor ++ (gap ++ (list ++ rest))⟩, (anchor ++ (gap ++ list)).length,
        [(0, anchor.length), (anchor.length + gap.length, (anchor ++ (gap ++ list)).length)]⟩ 1 =
      list := by
  constructor
  · simp [Hit.group]
  · simp [Hit.group, ← Nat.add_assoc]

/-- A clause is found whole. -/
theorem Clause.yields {before anchor gap list rest : Text} (h : Clause anchor gap list rest)
    (hbefore : isWordAt before.head? = false)
    (hcolumns : anchor.map foldLetter = "UPDATE".toList.map foldLetter →
      followsKey before = false) :
    Yields before (anchor ++ (gap ++ list)) rest [list] := by
  have hmatch := matchAt?_clause h hbefore
  obtain ⟨hanchor, hlist⟩ := groups_clause before anchor gap list rest
  have hsplit : anchor ++ (gap ++ (list ++ rest)) = (anchor ++ (gap ++ list)) ++ rest := by simp
  rw [Yields, ← hsplit, listsBehind_hit hmatch]
  · rw [hlist, Hit.stop, Cursor.skip, hsplit, List.take_left, List.drop_left]
    rfl
  · rw [updatesColumns, hanchor]
    cases hsame : Unicode.sameLetters anchor "UPDATE".toList with
    | false => rfl
    | true => exact hcolumns (beq_iff_eq.mp hsame)

end QueryDigest.TableClause
