import Mathlib.Data.List.DropRight
import QueryDigest.Proofs.Statement.KeptComments
import QueryDigest.Proofs.Statement.Openings

/-!
Statements without block comments, line by line. A marker of a line comment counts if no quote
stands behind it on its line, so that erasing comments cuts each line at the first marker behind its
last quote and leaves the ends of the lines where they are.
-/

namespace QueryDigest.Comment

open Pattern

/-! ### Lines -/

/-- A carriage return or a line feed. -/
def isBreak (c : Char) : Bool :=
  c == '\r' || c == '\n'

def isLiteralQuote (c : Char) : Bool :=
  c == '\'' || c == '"'

/-- A text starts with the marker of a line comment. -/
def StartsLine (t : Text) : Prop :=
  "--".toList <+: t ∨ "#".toList <+: t

instance : DecidablePred StartsLine :=
  fun _ => inferInstanceAs (Decidable (_ ∨ _))

/-- What stands behind a line: nothing, or the break that ends it. -/
def BreaksOff (rest : Text) : Prop :=
  ∀ c, rest.head? = some c → isBreak c = true

theorem breaksOff_cons {c : Char} {rest : Text} : BreaksOff (c :: rest) ↔ isBreak c = true := by
  simp [BreaksOff]

instance : DecidablePred BreaksOff
  | [] => .isTrue nofun
  | _ :: _ => decidable_of_iff _ breaksOff_cons.symm

/-- A text up to the first marker of a line comment in it. -/
def upToMarker : Text → Text
  | [] => []
  | c :: rest => if StartsLine (c :: rest) then [] else c :: upToMarker rest

/-- A line without the comment at its end, which opens behind its last quote. -/
def eraseInLine (l : Text) : Text :=
  l.rdropWhile (!isLiteralQuote ·) ++ upToMarker (l.rtakeWhile (!isLiteralQuote ·))

/-- Writes `f` of each line in its place. A line is all that stands between two breaks. -/
def mapLines (f : Text → Text) (t : Text) : Text :=
  match _h : t.dropWhile (!isBreak ·) with
  | [] => f t
  | c :: rest => f (t.takeWhile (!isBreak ·)) ++ c :: mapLines f rest
termination_by t.length
decreasing_by
  have hle := (t.dropWhile_suffix (!isBreak ·)).length_le
  rw [_h] at hle
  exact hle

theorem isBreak_of_dropWhile {t rest : Text} {c : Char}
    (h : t.dropWhile (!isBreak ·) = c :: rest) : isBreak c = true := by
  have hnot := List.head?_dropWhile_not (!isBreak ·) t
  rw [h] at hnot
  simpa using hnot

theorem prefix_upToMarker (t : Text) : upToMarker t <+: t := by
  induction t with
  | nil => exact List.prefix_rfl
  | cons c rest ih =>
      rw [upToMarker]
      split
      · exact List.nil_prefix
      · exact List.cons_prefix_cons.mpr ⟨rfl, ih⟩

theorem prefix_eraseInLine (l : Text) : eraseInLine l <+: l := by
  have hprefix := (List.prefix_append_right_inj (l.rdropWhile (!isLiteralQuote ·))).mpr
    (prefix_upToMarker (l.rtakeWhile (!isLiteralQuote ·)))
  rwa [List.rdropWhile_append_rtakeWhile] at hprefix

/-! ### Matches on a line -/

theorem inLineComment_eq (c : Char) : inLineComment c = (!isLiteralQuote c && !isBreak c) := by
  simp [inLineComment, isLiteralQuote, isBreak, bne, Bool.and_assoc]

theorem run_lineEnd {a : Attempt} (hbefore : a.before.head? ≠ some '\r') (onward : Onward) :
    lineEnd.run a onward =
      if BreaksOff a.after then onward a else none := by
  rw [lineEnd, run]
  obtain ⟨before, after, passed, groups⟩ := a
  cases after with
  | nil => simp [BreaksOff]
  | cons c rest =>
      by_cases hr : c = '\r'
      · simp [hr, breaksOff_cons, isBreak]
      · by_cases hn : c = '\n'
        · simp [hn, breaksOff_cons, isBreak, hbefore]
        · simp [hr, hn, breaksOff_cons, isBreak]

/-- Behind a marker, a line comment takes what is left of its line. -/
theorem run_marker {m t : Text} (hm : m = "--".toList ∨ m = "#".toList) {a : Attempt}
    (hafter : a.after = m ++ t) (onward : Onward) :
    (exactly "--".toList ||| exactly "#".toList).run a onward = onward (a.take m t) := by
  have hapart : '#' ≠ '-' := by decide
  rw [run_or]
  obtain rfl | rfl := hm
  · have hhash : (exactly "#".toList).run a onward = none := run_exactly_none hapart hafter onward
    rw [run_exactly hafter, hhash, Option.or_none]
  · have hdash : (exactly "--".toList).run a onward = none :=
      run_exactly_none hapart.symm hafter onward
    rw [hdash, run_exactly hafter, Option.none_or]

theorem run_marker_none {a : Attempt} (h : ¬ StartsLine a.after) (onward : Onward) :
    (exactly "--".toList ||| exactly "#".toList).run a onward = none := by
  refine Option.eq_none_iff_forall_ne_some.mpr fun b hrun => h ?_
  rw [run_or, Option.or_eq_some_iff] at hrun
  exact hrun.imp run_exactly_eq_some fun hhash => run_exactly_eq_some hhash.2

theorem head?_reverse_ne {ok : Char → Bool} {w : Text} (hne : w ≠ [])
    (hw : ∀ c ∈ w, ok c = true) {x : Char} (hx : ok x = false) (before : Text) :
    (w.reverse ++ before).head? ≠ some x := by
  cases hrev : w.reverse with
  | nil => exact absurd (List.reverse_eq_nil_iff.mp hrev) hne
  | cons d v =>
      rintro ⟨⟩
      have hmem : x ∈ w := List.mem_reverse.mp (hrev ▸ List.mem_cons_self)
      rw [hw x hmem] at hx
      cases hx

/-- A line comment is found at a marker with no quote behind it on its line, and goes up to the end
of the line. -/
theorem matchAt?_line (before t : Text) :
    line.matchAt? ⟨before, t⟩ =
      if StartsLine t ∧ BreaksOff (t.dropWhile inLineComment) then
        some ⟨⟨before, t⟩, (t.takeWhile inLineComment).length, []⟩
      else none := by
  rw [matchAt?, line, run_append, run_append]
  by_cases hstart : StartsLine t
  · obtain ⟨m, hm, rest, rfl⟩ :
        ∃ m, (m = "--".toList ∨ m = "#".toList) ∧ ∃ rest, t = m ++ rest := by
      obtain ⟨rest, rfl⟩ | ⟨rest, rfl⟩ := hstart
      · exact ⟨_, Or.inl rfl, rest, rfl⟩
      · exact ⟨_, Or.inr rfl, rest, rfl⟩
    have hmark : m ≠ [] ∧ ∀ c ∈ m, inLineComment c = true := by
      obtain rfl | rfl := hm <;> decide
    have hlast : ((m ++ rest.takeWhile inLineComment).reverse ++ before).head? ≠ some '\r' := by
      have hreturn : inLineComment '\r' = false := by decide
      refine head?_reverse_ne (by simp [hmark.1]) (fun c hc => ?_) hreturn before
      exact (List.mem_append.mp hc).elim (hmark.2 c) List.mem_takeWhile_imp
    rw [run_marker hm rfl, allOf, run_all, Attempt.furthest_eq_take, Attempt.take_take,
      Attempt.take_after, run_lineEnd hlast, List.dropWhile_append_of_pos hmark.2,
      List.takeWhile_append_of_pos hmark.2, Attempt.take_after]
    by_cases hend : BreaksOff (rest.dropWhile inLineComment)
    · rw [if_pos hend, if_pos ⟨hstart, hend⟩]
      simp
    · rw [if_neg hend, if_neg (fun h => hend h.2)]
      rfl
  · rw [run_marker_none hstart, if_neg (fun h => hstart h.1)]
    rfl

theorem matchAt?_line_none {before t : Text} (h : ¬ StartsLine t) :
    line.matchAt? ⟨before, t⟩ = none := by
  rw [matchAt?_line, if_neg fun hstart => h hstart.1]

/-! ### Lines and their ends -/

theorem not_startsLine_of_breaksOff {rest : Text} (h : BreaksOff rest) : ¬ StartsLine rest := by
  rintro (⟨more, rfl⟩ | ⟨more, rfl⟩)
  · exact absurd (h '-' rfl) (by decide)
  · exact absurd (h '#' rfl) (by decide)

theorem startsLine_append {c : Char} {t rest : Text} (h : BreaksOff rest) :
    StartsLine (c :: (t ++ rest)) ↔ StartsLine (c :: t) := by
  refine or_congr ?_ ?_
  · cases t with
    | nil =>
        constructor
        · intro hstart
          obtain ⟨more, rfl⟩ := (List.cons_prefix_cons.mp hstart).2
          exact absurd (h '-' rfl) (by decide)
        · exact fun hstart => hstart.trans (List.prefix_append [c] rest)
    | cons d t => simp
  · simp

/-- A text without quotes and breaks at the end of a line loses what stands behind its first
marker. -/
theorem turns_upToMarker {t rest : Text} (ht : ∀ c ∈ t, inLineComment c = true)
    (hrest : BreaksOff rest) (before : Text) : Turns line [] before t rest (upToMarker t) := by
  induction t generalizing before with
  | nil => exact turns_nil line [] before rest
  | cons c t ih =>
      rw [upToMarker]
      by_cases hstart : StartsLine (c :: t)
      · rw [if_pos hstart]
        have hend : ∀ d, rest.head? = some d → inLineComment d = false := by
          intro d hd
          rw [inLineComment_eq, hrest d hd, Bool.not_true, Bool.and_false]
        obtain ⟨htake, hdrop⟩ := Text.span_append ht hend
        have hmatch : line.matchAt? ⟨before, c :: t ++ rest⟩ =
            some ⟨⟨before, c :: t ++ rest⟩, (c :: t).length, []⟩ := by
          rw [matchAt?_line, hdrop, htake, if_pos ⟨(startsLine_append hrest).mpr hstart, hrest⟩]
        exact turns_hit hmatch rfl (List.cons_ne_nil c t)
      · rw [if_neg hstart]
        refine Turns.cons (matchAt?_line_none ?_)
          (ih (fun d hd => ht d (List.mem_cons_of_mem c hd)) (c :: before))
        exact mt (startsLine_append hrest).mp hstart

/-- No comment opens in front of the last quote of a line. -/
theorem turns_in_front {t : Text} (ht : ∀ c ∈ t, isBreak c = false)
    (hlast : ∀ c, t.getLast? = some c → isLiteralQuote c = true) (before rest : Text) :
    Turns line [] before t rest t := by
  refine turns_of_no_match fun u c v hsplit => ?_
  have hquote : isLiteralQuote ((c :: v).getLast (List.cons_ne_nil c v)) = true := by
    apply hlast
    rw [hsplit, List.getLast?_append_cons, List.getLast?_eq_some_getLast]
  have hstop : (c :: v).dropWhile inLineComment ≠ [] := by
    intro hnil
    have hin := List.dropWhile_eq_nil_iff.mp hnil _ (List.getLast_mem (List.cons_ne_nil c v))
    rw [inLineComment_eq, hquote] at hin
    cases hin
  obtain ⟨d, w, hd⟩ := List.exists_cons_of_ne_nil hstop
  have hmem : d ∈ t := by
    rw [hsplit]
    exact List.mem_append_right u ((List.dropWhile_sublist _).subset (hd ▸ List.mem_cons_self))
  have hdrop : (c :: (v ++ rest)).dropWhile inLineComment = d :: (w ++ rest) := by
    rw [← List.cons_append, List.dropWhile_append, hd]
    rfl
  rw [matchAt?_line, if_neg]
  rintro ⟨_, hend⟩
  rw [hdrop] at hend
  have hbreak := hend d rfl
  rw [ht d hmem] at hbreak
  cases hbreak

theorem turns_eraseInLine {l rest : Text} (hl : ∀ c ∈ l, isBreak c = false)
    (hrest : BreaksOff rest) (before : Text) :
    Turns line [] before l rest (eraseInLine l) := by
  have hfront : ∀ c ∈ l.rdropWhile (!isLiteralQuote ·), isBreak c = false := fun c hc =>
    hl c ((List.rdropWhile_prefix _ l).subset hc)
  have hlast : ∀ c, (l.rdropWhile (!isLiteralQuote ·)).getLast? = some c →
      isLiteralQuote c = true := by
    intro c hc
    obtain ⟨hne, rfl⟩ := List.mem_getLast?_eq_getLast hc
    simpa using List.rdropWhile_last_not _ l hne
  have hbehind : ∀ c ∈ l.rtakeWhile (!isLiteralQuote ·), inLineComment c = true := by
    intro c hc
    rw [inLineComment_eq, hl c ((List.rtakeWhile_suffix _ l).subset hc), List.mem_rtakeWhile_imp hc]
    rfl
  have hline := (turns_in_front hfront hlast before _).append
    (turns_upToMarker hbehind hrest ((l.rdropWhile (!isLiteralQuote ·)).reverse ++ before))
  rwa [List.rdropWhile_append_rtakeWhile] at hline

theorem turns_mapLines (t before : Text) :
    Turns line [] before t [] (mapLines eraseInLine t) := by
  fun_induction mapLines eraseInLine t generalizing before with
  | case1 t h =>
      have hline : ∀ c ∈ t, isBreak c = false := fun c hc => by
        simpa using List.dropWhile_eq_nil_iff.mp h c hc
      exact turns_eraseInLine hline (by simp [BreaksOff]) before
  | case2 t c rest h ih =>
      have hline : ∀ d ∈ t.takeWhile (!isBreak ·), isBreak d = false := fun d hd => by
        simpa using List.mem_takeWhile_imp hd
      have hc : isBreak c = true := isBreak_of_dropWhile h
      have hbreaks : BreaksOff (c :: (rest ++ [])) := breaksOff_cons.mpr hc
      have hbehind := Turns.cons (matchAt?_line_none (not_startsLine_of_breaksOff hbreaks))
        (ih (c :: ((t.takeWhile (!isBreak ·)).reverse ++ before)))
      have hall := (turns_eraseInLine hline hbreaks before).append hbehind
      rwa [← h, List.takeWhile_append_dropWhile] at hall

/-! ### Statements without block comments -/

/-- No opener of a block comment comes together where line comments are cut off. -/
theorem infix_of_mapLines {t : Text} (h : "/*".toList <:+: mapLines eraseInLine t) :
    "/*".toList <:+: t := by
  fun_induction mapLines eraseInLine t with
  | case1 t _ => exact h.trans (prefix_eraseInLine t).isInfix
  | case2 t c rest hdrop ih =>
      have hc : isBreak c = true := isBreak_of_dropWhile hdrop
      have hmarks : ∀ d ∈ "/*".toList, isBreak d = false := by decide
      have hother : c ∉ "/*".toList := by
        intro hmem
        rw [hmarks c hmem] at hc
        cases hc
      obtain hline | hbehind := infix_of_between hother h
      · exact hline.trans ((prefix_eraseInLine _).trans (List.takeWhile_prefix _)).isInfix
      · have hsuffix : rest <:+ t :=
          (List.suffix_cons c rest).trans (hdrop ▸ List.dropWhile_suffix _)
        exact (ih hbehind).trans hsuffix.isInfix

theorem removeAll_block {t : Text} (h : ¬ "/*".toList <:+: t) : block.removeAll t = t := by
  refine replaceAll_of_no_match (fun u c v hsplit => ?_) []
  refine matchAt?_eq_none.mpr (Option.eq_none_iff_forall_ne_some.mpr fun b hrun => h ?_)
  rw [block, run_append, run_append, run_append] at hrun
  have hopens : "/*".toList <+: c :: v := run_exactly_eq_some hrun
  rw [hsplit]
  exact hopens.isInfix.trans (List.suffix_append u _).isInfix

/-- Without block comments, erasing comments takes the line comments off a statement, line by
line. -/
theorem erase_eq_mapLines (t : Text) (h : ¬ "/*".toList <:+: t) :
    erase t = mapLines eraseInLine t := by
  have hlines : line.removeAll t = mapLines eraseInLine t := (turns_mapLines t []).replaceAll
  have hopen : ¬ "/*".toList <:+: mapLines eraseInLine t := mt infix_of_mapLines h
  have hcut : eraseClosedAndCut t = mapLines eraseInLine t := by
    rw [eraseClosedAndCut, removeAll_block h, hlines, cutUnclosed,
      unclosedFrom_unmarked hopen (Or.inl rfl)]
  have hnumbered : ¬ HoldsNumbered (mapLines eraseInLine t) := by
    rintro ⟨v, hv, hnumbered⟩
    exact hopen (hnumbered.opens.isInfix.trans ((List.mem_tails _ _).mp hv).isInfix)
  rw [erase, hcut, find_showQualifier fun _ => hnumbered]

/-- Markers in and behind a literal, three dashes, a quote inside a comment, and lines that end in
each of the three ways. -/
theorem erase_eq_mapLines_breaks :
    ¬ "/*".toList <:+: "a '#' ---b # c\r\nd -- it's\r# e\n-- f".toList ∧
      erase "a '#' ---b # c\r\nd -- it's\r# e\n-- f".toList =
        mapLines eraseInLine "a '#' ---b # c\r\nd -- it's\r# e\n-- f".toList ∧
      mapLines eraseInLine "a '#' ---b # c\r\nd -- it's\r# e\n-- f".toList =
        "a '#' \r\nd -- it's\r\n".toList := by
  have hopen : ¬ "/*".toList <:+: "a '#' ---b # c\r\nd -- it's\r# e\n-- f".toList := by decide
  refine ⟨hopen, erase_eq_mapLines _ hopen, ?_⟩
  rw [← erase_eq_mapLines _ hopen]
  decide +kernel

end QueryDigest.Comment
