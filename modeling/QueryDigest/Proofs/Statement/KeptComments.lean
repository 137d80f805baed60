import Mathlib.Data.List.Infix
import QueryDigest.Proofs.Pattern.Replacing
import QueryDigest.Proofs.Statement.Comments

/-!
Statements as rows of text, block comments and version comments. Erasing comments takes out the
block comments and leaves the rest where it is, unless the end of a version comment and the text
behind it read as a block comment, or what is left is a SHOW statement with a version comment.
-/

namespace QueryDigest.Comment

open Pattern
open Unicode (foldLetter)

/-! ### Segments -/

/-- A character that opens neither a comment nor a literal. -/
def Harmless (c : Char) : Prop :=
  isQuote c = false ∧ c ∉ "/-#".toList

instance : DecidablePred Harmless :=
  fun _ => inferInstanceAs (Decidable (_ ∧ _))

/-- A part of a statement. Text may hold stars, but no comment does. -/
inductive Segment where
  | text (t : Text) (harmless : ∀ c ∈ t, Harmless c)
  | block (body : Text) (nonempty : body ≠ []) (unmarked : body.head? ≠ some '!')
      (starless : '*' ∉ body)
  | version (body : Text) (harmless : ∀ c ∈ body, Harmless c) (starless : '*' ∉ body)

namespace Segment

def spelling : Segment → Text
  | text t _ => t
  | block body _ _ _ => "/*".toList ++ body ++ "*/".toList
  | version body _ _ => "/*!".toList ++ body ++ "*/".toList

/-- What is left of a segment without block comments. -/
def kept : Segment → Text
  | block _ _ _ _ => []
  | s => s.spelling

end Segment

def spelled (segments : List Segment) : Text :=
  segments.flatMap Segment.spelling

def kept (segments : List Segment) : Text :=
  segments.flatMap Segment.kept

/-- Behind the last slash of a comment, the text reads as the rest of a block comment. -/
def Reopens : Text → Prop
  | '*' :: c :: more => c ≠ '!' ∧ "*/".toList <:+: more
  | _ => False

/-- No version comment shares its last slash with a block comment. -/
def Apart : List Segment → Prop
  | [] => True
  | .version _ _ _ :: segments => ¬ Reopens (spelled segments) ∧ Apart segments
  | _ :: segments => Apart segments

/-- The text starts with SHOW in any case. -/
def OpensShow (t : Text) : Prop :=
  (t.take 4).map foldLetter = "SHOW".toList

/-- The text starts with a version comment that has a number and is closed. -/
def OpensNumbered : Text → Prop
  | '/' :: '*' :: '!' :: d :: more => d.isDigit = true ∧ "*/".toList <:+: more
  | _ => False

/-- The text holds a version comment that has a number and is closed. -/
def HoldsNumbered (t : Text) : Prop :=
  ∃ v ∈ t.tails, OpensNumbered v

instance : DecidablePred Reopens := by
  intro t
  unfold Reopens
  split <;> infer_instance

instance decidableApart : DecidablePred Apart
  | [] => isTrue trivial
  | .version _ _ _ :: segments =>
    have := decidableApart segments
    inferInstanceAs (Decidable (¬ Reopens (spelled segments) ∧ Apart segments))
  | .text _ _ :: segments => decidableApart segments
  | .block _ _ _ _ :: segments => decidableApart segments

instance : DecidablePred OpensShow :=
  fun _ => inferInstanceAs (Decidable (_ = _))

instance : DecidablePred OpensNumbered := by
  intro t
  unfold OpensNumbered
  split <;> infer_instance

instance : DecidablePred HoldsNumbered :=
  fun t => List.decidableBEx OpensNumbered t.tails

/-! ### The pass over block comments -/

theorem run_exactly {t rest : Text} {a : Attempt} (hafter : a.after = t ++ rest)
    (onward : Onward) : (exactly t).run a onward = onward (a.take t rest) := by
  induction t generalizing a with
  | nil =>
      obtain rfl : a.after = rest := hafter
      rw [Attempt.take_nil]
      rfl
  | cons c t ih =>
      change (char c ++ exactly t).run a onward = _
      rw [run_append, run_char hafter, ih rfl, Attempt.take_take]
      rfl

theorem run_exactly_none {c d : Char} {t rest : Text} (h : c ≠ d) {a : Attempt}
    (hafter : a.after = d :: rest) (onward : Onward) :
    (exactly (c :: t)).run a onward = none := by
  change (char c ++ exactly t).run a onward = _
  rw [run_append]
  refine run_char_none ?_ _
  rw [hafter]
  exact fun hhead => h (Option.some.inj hhead).symm

/-- A block comment that opens with the last slash of another comment. -/
theorem reopens_of_block {before rest : Text} {h : Hit}
    (hmatch : block.matchAt? ⟨before, '/' :: rest⟩ = some h) : Reopens rest := by
  obtain ⟨a, hrun, _⟩ := matchAt?_eq_some hmatch
  rw [block, run_append, run_append, run_append] at hrun
  obtain ⟨body, hbody⟩ := run_exactly_eq_some hrun
  rw [run_exactly hbody.symm, run_one, Option.bind_eq_some_iff] at hrun
  obtain ⟨b, hnext, hrun⟩ := hrun
  obtain ⟨c, more, hafter, hc, rfl⟩ := Attempt.next?_eq_some.mp hnext
  obtain ⟨d, ⟨taken, htaken, _, _⟩, hclose⟩ := run_eq_some hrun
  obtain rfl : body = c :: more := hafter
  obtain rfl : more = taken ++ d.after := htaken
  obtain rfl : '*' :: c :: (taken ++ d.after) = rest := (List.cons.inj hbody).2
  exact ⟨bne_iff_ne.mp hc,
    (run_exactly_eq_some hclose).isInfix.trans (List.suffix_append taken d.after).isInfix⟩

theorem matchAt?_block_none {before rest : Text} {c : Char} (hc : c ≠ '/') :
    block.matchAt? ⟨before, c :: rest⟩ = none :=
  Option.eq_none_iff_forall_ne_some.mpr fun _ hmatch => hc (block_opens hmatch).1

theorem matchAt?_block {body : Text} (hne : body ≠ []) (hmark : body.head? ≠ some '!')
    (hstar : '*' ∉ body) (before rest : Text) :
    block.matchAt? ⟨before, ("/*".toList ++ body ++ "*/".toList) ++ rest⟩ =
      some ⟨⟨before, ("/*".toList ++ body ++ "*/".toList) ++ rest⟩, body.length + 4, []⟩ := by
  obtain ⟨c, b, rfl⟩ := List.exists_cons_of_ne_nil hne
  have hc : (c != '!') = true := bne_iff_ne.mpr fun h => hmark (congrArg some h)
  have hsplit : ("/*".toList ++ (c :: b) ++ "*/".toList) ++ rest =
      "/*".toList ++ (c :: (b ++ ("*/".toList ++ rest))) := by simp
  have hstart : ∀ a : Attempt, a.after = "/*".toList ++ (c :: (b ++ ("*/".toList ++ rest))) →
      block.run a some = some (a.take ("/*".toList ++ ([c] ++ (b ++ "*/".toList))) rest) := by
    intro a hafter
    rw [block, run_append, run_append, run_append, run_exactly hafter,
      @run_one_take (· != '!') c hc _ _ rfl]
    refine run_asFew rfl (fun _ _ => rfl) ?_ ?_
    · intro u d v hb
      have hd : '*' ≠ d := by
        rintro rfl
        exact hstar (List.mem_cons_of_mem c (hb ▸ List.mem_append_right u List.mem_cons_self))
      exact run_exactly_none hd rfl _
    · rw [run_exactly rfl, Attempt.take_take, Attempt.take_take, Attempt.take_take]
  rw [hsplit, matchAt?]
  change Option.map _ (block.run (.start ⟨before, _⟩) some) = _
  rw [hstart _ rfl]
  simp [Attempt.start]

theorem turns_text {t : Text} (ht : ∀ c ∈ t, Harmless c) (before rest : Text) :
    Turns block [] before t rest t :=
  turns_of_chars (P := (· ≠ '/')) matchAt?_block_none fun c hc heq =>
    (ht c hc).2 (heq ▸ List.mem_cons_self)

theorem turns_block {body : Text} (hne : body ≠ []) (hmark : body.head? ≠ some '!')
    (hstar : '*' ∉ body) (before rest : Text) :
    Turns block [] before ("/*".toList ++ body ++ "*/".toList) rest [] :=
  turns_hit (matchAt?_block hne hmark hstar before rest) (by simp) (by simp)

theorem turns_version {body : Text} (hbody : ∀ c ∈ body, Harmless c) (before : Text) {rest : Text}
    (hrest : ¬ Reopens rest) :
    Turns block [] before ("/*!".toList ++ body ++ "*/".toList) rest
      ("/*!".toList ++ body ++ "*/".toList) := by
  have hopen : ∀ more, block.matchAt? ⟨before, '/' :: '*' :: '!' :: more⟩ = none := by
    intro more
    cases hmatch : block.matchAt? ⟨before, '/' :: '*' :: '!' :: more⟩ with
    | none => rfl
    | some h => exact absurd rfl (reopens_of_block hmatch).1
  have hclose : ∀ before, block.matchAt? ⟨before, '/' :: rest⟩ = none := by
    intro before
    cases hmatch : block.matchAt? ⟨before, '/' :: rest⟩ with
    | none => rfl
    | some h => exact absurd (reopens_of_block hmatch) hrest
  have hinner : ∀ before, Turns block [] before ("*!".toList ++ body ++ ['*']) ('/' :: rest)
      ("*!".toList ++ body ++ ['*']) := by
    intro before
    refine turns_of_chars (P := (· ≠ '/')) matchAt?_block_none fun c hc => ?_
    simp only [List.mem_append] at hc
    have hmarks : ∀ d ∈ "*!".toList, d ≠ '/' := by decide
    obtain (hc | hc) | hc := hc
    · exact hmarks c hc
    · exact fun heq => (hbody c hc).2 (heq ▸ List.mem_cons_self)
    · rw [List.mem_singleton.mp hc]
      decide
  have hall := Turns.cons (c := '/') (by simpa using hopen (body ++ '*' :: '/' :: rest)) <|
    (hinner ('/' :: before)).append (Turns.cons (hclose _) (turns_nil _ _ _ _))
  simpa using hall

theorem spelled_cons (s : Segment) (segments : List Segment) :
    spelled (s :: segments) = s.spelling ++ spelled segments :=
  List.flatMap_cons

theorem kept_cons (s : Segment) (segments : List Segment) :
    kept (s :: segments) = s.kept ++ kept segments :=
  List.flatMap_cons

theorem Apart.tail {s : Segment} {segments : List Segment} (h : Apart (s :: segments)) :
    Apart segments := by
  cases s with
  | text | block => exact h
  | version => exact h.2

theorem turns_segment (s : Segment) {segments : List Segment} (h : Apart (s :: segments))
    (before : Text) : Turns block [] before s.spelling (spelled segments) s.kept := by
  cases s with
  | text t harmless => exact turns_text harmless before _
  | block body nonempty unmarked starless => exact turns_block nonempty unmarked starless before _
  | version body harmless starless =>
      exact turns_version harmless before h.1

theorem turns_spelled {segments : List Segment} (h : Apart segments) (before : Text) :
    Turns block [] before (spelled segments) [] (kept segments) := by
  induction segments generalizing before with
  | nil => exact turns_nil block [] before []
  | cons s segments ih =>
      rw [spelled_cons, kept_cons]
      refine Turns.append ?_ (ih h.tail _)
      rw [List.append_nil]
      exact turns_segment s h before

/-! ### The passes behind it -/

/-- A character that may be left of the segments. -/
theorem mem_kept {segments : List Segment} {c : Char} (hc : c ∈ kept segments) :
    Harmless c ∨ c ∈ "/*!".toList := by
  obtain ⟨s, _, hs⟩ := List.mem_flatMap.mp hc
  cases s with
  | text t harmless => exact Or.inl (harmless c hs)
  | block body nonempty unmarked starless => cases hs
  | version body harmless starless =>
      simp only [Segment.kept, Segment.spelling, List.mem_append] at hs
      obtain (hs | hs) | hs := hs
      · exact Or.inr hs
      · exact Or.inl (harmless c hs)
      · have hmarks : ∀ d ∈ "*/".toList, d ∈ "/*!".toList := by decide
        exact Or.inr (hmarks c hs)

theorem removeAll_line {t : Text} (ht : ∀ c ∈ t, c ≠ '-' ∧ c ≠ '#') : line.removeAll t = t := by
  refine replaceAll_of_no_match (fun u c v hsplit => ?_) []
  obtain ⟨hdash, hhash⟩ := ht c (hsplit ▸ List.mem_append_right u List.mem_cons_self)
  cases hmatch : line.matchAt? ⟨u.reverse, c :: v⟩ with
  | none => rfl
  | some h =>
      obtain ⟨hc, _⟩ | hc := line_opens hmatch
      · exact absurd hc hdash
      · exact absurd hc hhash

theorem unclosedFrom_text {t : Text} (ht : ∀ c ∈ t, Harmless c) (n : Nat) (rest : Text) :
    unclosedFrom .plain n (t ++ rest) = unclosedFrom .plain (n + t.length) rest := by
  induction t generalizing n with
  | nil => rfl
  | cons c t ih =>
      obtain ⟨hquote, hmark⟩ := ht c List.mem_cons_self
      have hslash : c ≠ '/' := fun h => hmark (h ▸ List.mem_cons_self)
      rw [List.cons_append, unclosedFrom, if_neg (by simp [hquote]), if_neg (by simp [hslash]),
        ih (fun d hd => ht d (List.mem_cons_of_mem c hd)), List.length_cons, Nat.add_right_comm,
        Nat.add_assoc]

theorem closes_append (t : Text) {u : Text} (h : closes u = true) : closes (t ++ u) = true := by
  induction t with
  | nil => exact h
  | cons c t ih => rw [List.cons_append, closes, ih, Bool.or_true]

theorem starless_end {body : Text} (hbody : '*' ∉ body) : ¬ ['*', '/'] <:+: body ++ ['*'] := by
  rw [List.infix_concat_iff]
  rintro (⟨front, hlast⟩ | hinner)
  · simpa using congrArg List.getLast? hlast
  · exact hbody (hinner.subset List.mem_cons_self)

theorem unclosedFrom_version {body : Text} (hbody : '*' ∉ body) (n : Nat) (rest : Text) :
    ∃ m, unclosedFrom .plain n (("/*!".toList ++ body ++ "*/".toList) ++ rest) =
      unclosedFrom .plain m rest := by
  have hsplit : ("/*!".toList ++ body ++ "*/".toList) ++ rest =
      '/' :: '*' :: ('!' :: body ++ '*' :: '/' :: rest) := by simp
  have hcloses : closes ('*' :: ('!' :: body ++ '*' :: '/' :: rest)).tail = true :=
    closes_append ('!' :: body) rfl
  have hstar : '*' ∉ '!' :: body := fun hmem => (List.mem_cons.mp hmem).elim (by decide) hbody
  refine ⟨n + 1 + 1 + (('!' :: body).length + 2), ?_⟩
  rw [hsplit, unclosedFrom, if_neg (by decide), if_pos ⟨rfl, rfl⟩, if_pos hcloses, unclosedFrom,
    unclosedFrom_comment (starless_end hstar)]

theorem unclosedFrom_kept (segments : List Segment) (n : Nat) :
    unclosedFrom .plain n (kept segments) = none := by
  induction segments generalizing n with
  | nil => rfl
  | cons s segments ih =>
      rw [kept_cons]
      cases s with
      | text t harmless =>
          change unclosedFrom .plain n (t ++ kept segments) = none
          rw [unclosedFrom_text harmless, ih]
      | block body nonempty unmarked starless => exact ih n
      | version body harmless starless =>
          obtain ⟨m, hversion⟩ := unclosedFrom_version starless n (kept segments)
          change unclosedFrom .plain n
            (("/*!".toList ++ body ++ "*/".toList) ++ kept segments) = none
          rw [hversion, ih]

theorem eraseClosedAndCut_spelled {segments : List Segment} (h : Apart segments) :
    eraseClosedAndCut (spelled segments) = kept segments := by
  have hline : ∀ c ∈ kept segments, c ≠ '-' ∧ c ≠ '#' := by
    intro c hc
    obtain ⟨_, hc⟩ | hc := mem_kept hc
    · refine ⟨fun heq => hc ?_, fun heq => hc ?_⟩
      · rw [heq]
        decide
      · rw [heq]
        decide
    · have hmarks : ∀ d ∈ "/*!".toList, d ≠ '-' ∧ d ≠ '#' := by decide
      exact hmarks c hc
  have hblock : block.removeAll (spelled segments) = kept segments :=
    (turns_spelled h []).replaceAll
  rw [eraseClosedAndCut, hblock, removeAll_line hline, cutUnclosed, unclosedFrom_kept]

/-! ### SHOW statements -/

theorem OpensNumbered.opens {t : Text} (h : OpensNumbered t) : "/*".toList <+: t := by
  unfold OpensNumbered at h
  split at h
  · exact ⟨_, rfl⟩
  · exact h.elim

theorem find_showQualifier {t : Text} (h : OpensShow t → ¬ HoldsNumbered t) :
    showQualifier.find t = none := by
  have hanchored : showQualifier.Anchored :=
    (((((anchored_textStart.append _).append _).append _).append _).append _).append _
  rw [find_anchored hanchored]
  cases hmatch : showQualifier.matchAt? (.start t) with
  | none => rfl
  | some hit =>
      obtain ⟨a, hrun, _⟩ := matchAt?_eq_some hmatch
      change (keyword "SHOW".toList).run (.start (.start t)) (fun b => (asFew anyChar).run b
        fun c => (exactly "/*!".toList).run c fun d => digits.run d _) = some a at hrun
      obtain ⟨w, rest, hafter, hw, hrun⟩ := run_keyword_eq_some hrun
      obtain ⟨b, ⟨before, hrest, _, _⟩, hopen⟩ := run_eq_some hrun
      obtain ⟨more, hmore⟩ := run_exactly_eq_some hopen
      rw [run_exactly hmore.symm, digits, someOf, run_append, run_one,
        Option.bind_eq_some_iff] at hopen
      obtain ⟨c, hnext, hclose⟩ := hopen
      obtain ⟨d, behind, hd, hdigit, rfl⟩ := Attempt.next?_eq_some.mp hnext
      obtain rfl : more = d :: behind := hd
      have hend : "*/".toList <:+: behind := by
        obtain ⟨e, ⟨number, hnumber, _⟩, hqualified⟩ := run_eq_some hclose
        obtain ⟨f, ⟨qualifier, hqualifier, _⟩, hend⟩ := run_eq_some hqualified
        have hbehind : behind = number ++ e.after := hnumber
        rw [hbehind, hqualifier]
        exact (run_exactly_eq_some hend).isInfix.trans
          ((List.suffix_append qualifier _).trans (List.suffix_append number _)).isInfix
      obtain rfl : rest = before ++ b.after := hrest
      obtain rfl : t = w ++ (before ++ b.after) := hafter
      have hshow : OpensShow (w ++ (before ++ b.after)) := by
        have hlength := congrArg List.length hw
        rw [List.length_map, List.length_map] at hlength
        change w.length = 4 at hlength
        rw [OpensShow, ← hlength, List.take_left, hw]
        rfl
      have hsuffix : "/*!".toList ++ d :: behind <:+ w ++ (before ++ b.after) := by
        rw [hmore, ← List.append_assoc]
        exact List.suffix_append _ _
      exact absurd ⟨_, (List.mem_tails _ _).mpr hsuffix, hdigit, hend⟩ (h hshow)

/-- Erasing comments takes out just the block comments of a statement. -/
theorem erase_spelled (segments : List Segment) (hapart : Apart segments)
    (hshow : OpensShow (kept segments) → ¬ HoldsNumbered (kept segments)) :
    erase (spelled segments) = kept segments := by
  rw [erase, eraseClosedAndCut_spelled hapart, find_showQualifier hshow]

/-- Comments next to each other and stars behind comments, in a SHOW statement in which the opener
with a number at the end is not closed. -/
theorem erase_spelled_adjacent :
    let segments : List Segment :=
      [.block "/-- '".toList (by decide) (by decide) (by decide),
        .text "show **".toList (by decide), .block "#".toList (by decide) (by decide) (by decide),
        .version "a".toList (by decide) (by decide), .text "*!b".toList (by decide),
        .version "".toList (by decide) (by decide),
        .block "\x60/".toList (by decide) (by decide) (by decide), .text "*!1".toList (by decide)]
    erase (spelled segments) = kept segments ∧
      kept segments = "show **/*!a*/*!b/*!*/*!1".toList := by
  intro segments
  exact ⟨erase_spelled segments (by decide +kernel) fun _ => by decide +kernel, by decide +kernel⟩

/-- Behind a block comment, SHOW opens a SHOW statement, and its version comment gives way to the
qualifier. -/
theorem erase_ne_kept_of_hidden_show :
    let segments : List Segment := [.block "x".toList (by decide) (by decide) (by decide),
      .text "SHOW ".toList (by decide), .version "1 y".toList (by decide) (by decide)]
    ¬ OpensShow (spelled segments) ∧ Apart segments ∧ erase (spelled segments) ≠ kept segments := by
  decide +kernel

/-- The last slash of a version comment opens a block comment in front of a star. -/
theorem erase_ne_kept_of_reopened :
    let segments : List Segment := [.version "a".toList (by decide) (by decide),
      .text "* b ".toList (by decide), .block "c".toList (by decide) (by decide) (by decide),
      .text " d".toList (by decide)]
    ¬ OpensShow (spelled segments) ∧ ¬ HoldsNumbered (kept segments) ∧
      erase (spelled segments) ≠ kept segments := by
  decide +kernel

end QueryDigest.Comment
