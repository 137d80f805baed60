import Mathlib.Data.List.TakeWhile
import QueryDigest.Proofs.Pattern.Keywords
import QueryDigest.Proofs.Unicode.Letters

/-!
Words in a text. A word is a maximal run of word characters, and a pattern with an edge on both
sides sees a text as its words: a keyword or a run of word characters between edges is a whole word.
-/

namespace QueryDigest

open Unicode (foldLetter isWord)

namespace Text

open Pattern (isWordAt)

/-! ### Words -/

/-- The maximal runs of word characters of a text, each with the offset at which it starts, where
the text itself stands at an offset. -/
def wordRuns (offset : Nat) : Text → List (Nat × Text)
  | [] => []
  | c :: rest =>
    if isWord c then
      (offset, c :: rest.takeWhile isWord) ::
        wordRuns (offset + (c :: rest.takeWhile isWord).length) (rest.dropWhile isWord)
    else wordRuns (offset + 1) rest
termination_by t => t.length
decreasing_by
  · exact Nat.lt_succ_of_le (List.dropWhile_suffix isWord).length_le
  · exact Nat.lt_succ_self rest.length

theorem isWordAt_dropWhile (t : Text) : isWordAt (t.dropWhile isWord).head? = false := by
  have hnot := List.head?_dropWhile_not isWord t
  cases hhead : (t.dropWhile isWord).head? with
  | none => rfl
  | some c =>
      rw [hhead] at hnot
      exact hnot

/-- A word with what stands around it in a text. -/
structure StandsIn (t before w after : Text) : Prop where
  split : t = before ++ w ++ after
  nonempty : w ≠ []
  word : ∀ c ∈ w, isWord c = true
  edge_before : isWordAt before.getLast? = false
  edge_after : isWordAt after.head? = false

/-- A run that starts where a text is cut into words is maximal, and it stands at its offset. -/
theorem standsIn_of_mem_wordRuns {n : Nat} {u t : Text} (hn : u.length = n)
    (hu : isWordAt t.head? = true → isWordAt u.getLast? = false) {run : Nat × Text}
    (h : run ∈ wordRuns n t) :
    ∃ before after, StandsIn (u ++ t) before run.2 after ∧ before.length = run.1 := by
  fun_induction wordRuns n t generalizing u with
  | case1 => cases h
  | case2 n c rest hc ih =>
      obtain rfl | h := List.mem_cons.mp h
      · refine ⟨u, rest.dropWhile isWord, ⟨?_, List.cons_ne_nil c _, ?_, hu hc, ?_⟩, hn⟩
        · simp
        · exact List.forall_mem_cons.mpr ⟨hc, fun d hd => List.mem_takeWhile_imp hd⟩
        · exact isWordAt_dropWhile rest
      · obtain ⟨before, after, hstands, hlength⟩ := ih
          (u := u ++ c :: rest.takeWhile isWord) (by rw [List.length_append, hn])
          (fun hhead => by rw [isWordAt_dropWhile] at hhead; cases hhead) h
        refine ⟨before, after, ?_, hlength⟩
        rwa [List.append_assoc, List.cons_append, List.takeWhile_append_dropWhile] at hstands
  | case3 n c rest hc ih =>
      have hlast : isWordAt (u ++ [c]).getLast? = false := by
        rw [List.getLast?_concat]
        exact Bool.eq_false_iff.mpr hc
      obtain ⟨before, after, hstands, hlength⟩ :=
        ih (u := u ++ [c]) (by rw [List.length_append, hn]; rfl) (fun _ => hlast) h
      refine ⟨before, after, ?_, hlength⟩
      rwa [List.append_assoc, List.singleton_append] at hstands

/-- A run of characters of a class ends where the class does. -/
theorem span_append {ok : Char → Bool} {w rest : Text} (hw : ∀ c ∈ w, ok c = true)
    (hrest : ∀ c, rest.head? = some c → ok c = false) :
    (w ++ rest).takeWhile ok = w ∧ (w ++ rest).dropWhile ok = rest := by
  rw [List.takeWhile_append_of_pos hw, List.dropWhile_append_of_pos hw]
  cases rest with
  | nil => simp
  | cons c rest =>
      have hc : ¬ ok c = true := by simp [hrest c rfl]
      rw [List.takeWhile_cons_of_neg hc, List.dropWhile_cons_of_neg hc, List.append_nil]
      exact ⟨rfl, rfl⟩

/-- A character outside a class ends a run of its characters, whatever stands behind it. -/
theorem span_before {ok : Char → Bool} {q : Char} (hq : ok q = false) (t v : Text) :
    (t ++ q :: v).takeWhile ok = t.takeWhile ok ∧
      (t ++ q :: v).dropWhile ok = t.dropWhile ok ++ q :: v := by
  induction t with
  | nil => simp [hq]
  | cons c t ih => cases hc : ok c <;> simp [hc, ih]

/-- Words keep their distances when a text stands further on. -/
theorem wordRuns_add (n k : Nat) (t : Text) :
    wordRuns (n + k) t = (wordRuns n t).map fun run => (run.1 + k, run.2) := by
  fun_induction wordRuns n t with
  | case1 => rw [wordRuns, List.map_nil]
  | case2 n c rest hc ih =>
      rw [wordRuns, if_pos hc, List.map_cons, ← ih, Nat.add_right_comm]
  | case3 n c rest hc ih => rw [wordRuns, if_neg hc, ← ih, Nat.add_right_comm]

/-- A mark at the end of a text is no part of its words. -/
theorem wordRuns_concat {c : Char} (hc : isWord c = false) (n : Nat) (t : Text) :
    wordRuns n (t ++ [c]) = wordRuns n t := by
  fun_induction wordRuns n t with
  | case1 n => rw [List.nil_append, wordRuns, if_neg (by simp [hc]), wordRuns]
  | case2 n d rest hd ih =>
      obtain ⟨hfront, hbehind⟩ := span_before hc rest []
      rw [List.cons_append, wordRuns, if_pos hd, hfront, hbehind, ih]
  | case3 n d rest hd ih => rw [List.cons_append, wordRuns, if_neg hd, ih]

theorem not_word_of_edge {rest : Text} (h : isWordAt rest.head? = false) :
    ∀ c, rest.head? = some c → isWord c = false := by
  intro c hc
  rwa [hc] at h

/-- Words that start one text and are not continued in it are the same. -/
theorem word_unique {w w' rest rest' : Text} (h : w ++ rest = w' ++ rest')
    (hw : ∀ c ∈ w, isWord c = true) (hw' : ∀ c ∈ w', isWord c = true)
    (hrest : isWordAt rest.head? = false) (hrest' : isWordAt rest'.head? = false) : w = w' := by
  rw [← (span_append hw (not_word_of_edge hrest)).1, h,
    (span_append hw' (not_word_of_edge hrest')).1]

/-- A text of word characters lies within the word that the rest stands behind. -/
theorem prefix_of_edge {w m rest rest' : Text} (h : w ++ rest = m ++ rest')
    (hm : ∀ c ∈ m, isWord c = true) (hrest : isWordAt rest.head? = false) : m <+: w := by
  obtain ⟨x, hx, hrest'⟩ | ⟨x, hx, _⟩ := List.append_eq_append_iff.mp h
  · cases x with
    | nil => exact ⟨[], by simp [hx]⟩
    | cons c x =>
        rw [hrest'] at hrest
        have hc := hm c (hx ▸ List.mem_append_right w List.mem_cons_self)
        exact absurd hc (Bool.eq_false_iff.mp hrest)
  · exact ⟨x, hx.symm⟩

theorem isWordAt_head? {w : Text} (hne : w ≠ []) (hw : ∀ c ∈ w, isWord c = true) (rest : Text) :
    isWordAt (w ++ rest).head? = true := by
  obtain ⟨c, w, rfl⟩ := List.exists_cons_of_ne_nil hne
  exact hw c List.mem_cons_self

theorem isWordAt_reverse {w : Text} (hne : w ≠ []) (hw : ∀ c ∈ w, isWord c = true) (before : Text) :
    isWordAt (w.reverse ++ before).head? = true :=
  isWordAt_head? (List.reverse_ne_nil_iff.mpr hne) (fun c hc => hw c (List.mem_reverse.mp hc))
    before

/-- What reads as a keyword is made of word characters. -/
theorem word_of_fold {w t : Text} (h : w.map foldLetter = t.map foldLetter) (hne : t ≠ [])
    (hupper : (t.map foldLetter).all Char.isUpper = true) :
    w ≠ [] ∧ ∀ c ∈ w, isWord c = true := by
  constructor
  · rintro rfl
    exact hne (List.map_eq_nil_iff.mp h.symm)
  · intro c hc
    exact Unicode.isWord_of_isUpper_foldLetter
      (List.all_eq_true.mp hupper _ (h ▸ List.mem_map_of_mem hc))

end Text

namespace Pattern

/-! ### Runs over words -/

theorem run_allOf {ok : Char → Bool} {w rest : Text} (hw : ∀ c ∈ w, ok c = true)
    (hrest : ∀ c, rest.head? = some c → ok c = false) {a : Attempt} (hafter : a.after = w ++ rest)
    (onward : Onward) : (allOf ok).run a onward = onward (a.take w rest) := by
  obtain ⟨htake, hdrop⟩ := Text.span_append hw hrest
  rw [allOf, run_all, Attempt.furthest_eq_take, hafter, htake, hdrop]

theorem run_one_take {ok : Char → Bool} {c : Char} (hc : ok c = true) {rest : Text} {a : Attempt}
    (hafter : a.after = c :: rest) (onward : Onward) :
    (Pattern.one ok).run a onward = onward (a.take [c] rest) := by
  rw [run_one, Attempt.next?_eq_some.mpr ⟨c, rest, hafter, hc, rfl⟩]
  rfl

theorem run_char {c : Char} {rest : Text} {a : Attempt} (hafter : a.after = c :: rest)
    (onward : Onward) : (char c).run a onward = onward (a.take [c] rest) :=
  @run_one_take (· == c) c (beq_self_eq_true c) rest a hafter onward

theorem run_one_none {ok : Char → Bool} {a : Attempt}
    (h : ∀ c, a.after.head? = some c → ok c = false) (onward : Onward) :
    (Pattern.one ok).run a onward = none := by
  rw [run_one, Attempt.next?_eq_none.mpr h]
  rfl

theorem run_char_none {c : Char} {a : Attempt} (h : a.after.head? ≠ some c) (onward : Onward) :
    (char c).run a onward = none := by
  refine run_one_none (fun d hd => beq_eq_false_iff_ne.mpr ?_) onward
  rintro rfl
  exact h hd

theorem run_someOf {ok : Char → Bool} {w rest : Text} (hne : w ≠ []) (hw : ∀ c ∈ w, ok c = true)
    (hrest : ∀ c, rest.head? = some c → ok c = false) {a : Attempt} (hafter : a.after = w ++ rest)
    (onward : Onward) : (someOf ok).run a onward = onward (a.take w rest) := by
  obtain ⟨c, w, rfl⟩ := List.exists_cons_of_ne_nil hne
  have hw' : ∀ d ∈ w, ok d = true := fun d hd => hw d (List.mem_cons_of_mem c hd)
  change (Pattern.one ok ++ allOf ok).run a onward = _
  rw [run_append, run_one_take (hw c List.mem_cons_self) hafter, run_allOf hw' hrest rfl]
  exact congrArg onward (Attempt.take_cons c w rest a)

/-- A single space in front of anything else. -/
theorem run_blank {rest : Text} (hrest : ∀ c, rest.head? = some c → Unicode.isBlank c = false)
    {a : Attempt} (hafter : a.after = ' ' :: rest) (onward : Onward) :
    blanks.run a onward = onward (a.take [' '] rest) :=
  run_someOf (List.cons_ne_nil ' ' []) (List.forall_mem_singleton.mpr rfl) hrest hafter onward

/-- Of keywords none of which starts like another, the one that the text starts with is taken. -/
theorem run_keywords {ts : List Text} {t w rest : Text} (ht : t ∈ ts)
    (hw : w.map foldLetter = t.map foldLetter)
    (hapart : ∀ t' ∈ ts, t'.map foldLetter <+: t.map foldLetter ∨
      t.map foldLetter <+: t'.map foldLetter → t' = t)
    {a : Attempt} (hafter : a.after = w ++ rest) (onward : Onward) :
    (keywords ts).run a onward = onward (a.take w rest) := by
  have hback : ∀ b, (keywords ts).run a onward = some b → onward (a.take w rest) = some b := by
    intro b hb
    obtain ⟨t', ht', w', rest', hafter', hw', honward⟩ := run_keywords_eq_some hb
    have hstart := fold_starts hafter' hafter
    rw [hw, hw'] at hstart
    obtain rfl := hapart t' ht' hstart
    have hlength : w'.length = w.length := by
      rw [← List.length_map foldLetter, hw', ← hw, List.length_map]
    obtain ⟨rfl, rfl⟩ := List.append_inj (hafter'.symm.trans hafter) hlength
    exact honward
  cases hrun : (keywords ts).run a onward with
  | some b => exact (hback b hrun).symm
  | none =>
      by_cases honward : onward (a.take w rest) = none
      · exact honward.symm
      · exact absurd hrun (run_keywords_ne_none ht hw hafter honward)

/-! ### How a run goes on -/

theorem local_run (p : Pattern) : Local p.run := by
  intro Q a onward onward' hfollows
  have hI := invariant_reaches a
  exact run_related hI.simulation (hI.respects p) hfollows ⟨rfl, .refl a⟩

/-- A run that has to go on from a place that the pattern reaches fails if it cannot. -/
theorem run_none {p : Pattern} {a : Attempt} {onward : Onward}
    (h : ∀ b, a.Reaches b → onward b = none) : p.run a onward = none :=
  Local.none (local_run p) h

/-- A run ends as it goes on from some place that the pattern reaches. -/
theorem run_eq_some {p : Pattern} {a b : Attempt} {onward : Onward}
    (h : p.run a onward = some b) : ∃ c, a.Reaches c ∧ onward c = some b := by
  have hrel : Option.Rel (fun x _ => ∃ c, a.Reaches c ∧ onward c = some x) (p.run a onward)
      (p.run a onward) := by
    refine local_run p ?_
    rintro c d ⟨rfl, hreaches⟩
    cases honward : onward c with
    | none => exact .none
    | some x => exact .some ⟨c, hreaches, honward⟩
  rw [h] at hrel
  cases hrel with
  | some h => exact h

theorem run_optional_ne_none {p : Pattern} {a : Attempt} {onward : Onward} (h : onward a ≠ none) :
    (optional p).run a onward ≠ none := by
  rw [optional, run_or]
  exact fun hnone => h (Option.or_eq_none_iff.mp hnone).2

/-- Rounds that cannot start leave the attempt where it is. -/
theorem run_many_none {p : Pattern} {a : Attempt} (h : ∀ onward, p.run a onward = none)
    (onward : Onward) : (Pattern.many p).run a onward = onward a := by
  rw [run]
  cases a.after with
  | nil => rfl
  | cons c rest => rw [rounds, h]

end Pattern
end QueryDigest
