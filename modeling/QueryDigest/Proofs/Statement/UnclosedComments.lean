import Mathlib.Data.List.Infix
import Mathlib.Data.Nat.Find
import QueryDigest.Proofs.Statement.Comments

/-!
Where a comment is left open. A statement is read as literals, closed comments and single
characters, each one a lexeme; an opener between two lexemes that no end of a comment follows leaves
its comment open. The statement is cut at the first one, unless a version comment opens there.
-/

namespace QueryDigest.Comment

/-- What stands between the quotes of a literal, where a backslash takes the next character in. -/
inductive LiteralBody (quote : Char) : Text → Prop
  | nil : LiteralBody quote []
  | char {c : Char} {body : Text} (hquote : c ≠ quote) (hescape : c ≠ '\\')
      (h : LiteralBody quote body) : LiteralBody quote (c :: body)
  | escape {c : Char} {body : Text} (h : LiteralBody quote body) :
      LiteralBody quote ('\\' :: c :: body)

/-- A closed literal, a closed comment up to its first end, or a character in front of `rest` that
opens neither. -/
inductive Lexeme (rest : Text) : Text → Prop
  | char {c : Char} (hquote : isQuote c = false)
      (hopener : ∀ body, c :: rest = '/' :: '*' :: body → ¬ ['*', '/'] <:+: body) : Lexeme rest [c]
  | literal {quote : Char} {body : Text} (hquote : isQuote quote = true)
      (hbody : LiteralBody quote body) : Lexeme rest (quote :: (body ++ [quote]))
  | comment {body : Text} (hbody : ¬ ['*', '/'] <:+: body ++ ['*']) :
      Lexeme rest ('/' :: '*' :: (body ++ ['*', '/']))

/-- A row of lexemes in front of `after`: what follows it stands outside literals and closed
comments. -/
inductive Outside (after : Text) : Text → Prop
  | start : Outside after []
  | behind {lexeme before : Text} (hlexeme : Lexeme (before ++ after) lexeme)
      (h : Outside after before) : Outside after (lexeme ++ before)

/-- A comment that opens behind `before`, outside literals and closed comments, and has no end. -/
structure Unclosed (t before behind : Text) : Prop where
  split : t = before ++ '/' :: '*' :: behind
  outside : Outside ('/' :: '*' :: behind) before
  endless : ¬ ['*', '/'] <:+: behind

/-- No unclosed comment of the text opens in front of this one. -/
def FirstUnclosed (t before behind : Text) : Prop :=
  Unclosed t before behind ∧ ∀ u v, Unclosed t u v → before.length ≤ u.length

theorem closes_iff {t : Text} : closes t = true ↔ ['*', '/'] <:+: t := by
  induction t with
  | nil => simp [closes]
  | cons c rest ih =>
      rw [closes, Bool.or_eq_true, ih, List.infix_cons_iff]
      refine or_congr_left ⟨fun h => ?_, fun h => ?_⟩
      · rw [Bool.and_eq_true, beq_iff_eq, beq_iff_eq] at h
        obtain ⟨d, rest, rfl⟩ := List.exists_cons_of_ne_nil (l := rest) (by rintro rfl; cases h.2)
        cases h.2
        exact h.1 ▸ ⟨rest, rfl⟩
      · obtain ⟨rfl, hhead⟩ := opener_of_start h
        simp [hhead]

/-- An end of a comment comes after a body with no earlier one. -/
theorem exists_end {t : Text} (h : closes t = true) :
    ∃ body rest, t = body ++ '*' :: '/' :: rest ∧ ¬ ['*', '/'] <:+: body ++ ['*'] := by
  induction t with
  | nil => cases h
  | cons c rest ih =>
      by_cases hend : c = '*' ∧ rest.head? = some '/'
      · obtain ⟨rfl, hhead⟩ := hend
        cases rest with
        | nil => cases hhead
        | cons d rest =>
            cases hhead
            exact ⟨[], rest, rfl, by decide⟩
      · have hrest : closes rest = true := by
          rw [closes, Bool.or_eq_true, Bool.and_eq_true, beq_iff_eq, beq_iff_eq] at h
          exact h.resolve_left hend
        obtain ⟨body, behind, rfl, hbody⟩ := ih hrest
        refine ⟨c :: body, behind, rfl, ?_⟩
        rw [List.cons_append, List.infix_cons_iff, not_or]
        refine ⟨fun hstart => hend ?_, hbody⟩
        obtain ⟨hc, hhead⟩ := opener_of_start hstart
        refine ⟨hc, ?_⟩
        cases body with
        | nil => cases hhead
        | cons d body => exact hhead

/-! ### The scan over one lexeme -/

theorem unclosedFrom_literalBody {quote : Char} {body : Text} (h : LiteralBody quote body) (n : Nat)
    (rest : Text) :
    unclosedFrom (.quoted quote) n (body ++ rest) =
      unclosedFrom (.quoted quote) (n + body.length) rest := by
  induction h generalizing n with
  | nil => rfl
  | char hquote hescape _ ih =>
      rw [List.cons_append, unclosedFrom, if_neg hescape, if_neg hquote, ih, List.length_cons,
        Nat.add_right_comm, Nat.add_assoc]
  | escape _ ih =>
      rw [List.cons_append, List.cons_append, unclosedFrom, if_pos rfl, unclosedFrom, ih,
        List.length_cons, List.length_cons, Nat.add_right_comm, Nat.add_right_comm _ 1,
        Nat.add_assoc, Nat.add_assoc]

/-- The quote that closes a literal stands in `t`, or the scan finds nothing there. -/
def ClosedOrNone (quote : Char) (t : Text) : Prop :=
  (∃ body rest, t = body ++ quote :: rest ∧ LiteralBody quote body) ∨
    ∀ n, unclosedFrom (.quoted quote) n t = none

theorem ClosedOrNone.cons {quote c : Char} {rest : Text} (h : ClosedOrNone quote rest)
    (hescape : c ≠ '\\') : ClosedOrNone quote (c :: rest) := by
  by_cases hquote : c = quote
  · exact Or.inl ⟨[], rest, hquote ▸ rfl, .nil⟩
  · obtain ⟨body, behind, rfl, hbody⟩ | hnone := h
    · exact Or.inl ⟨c :: body, behind, rfl, .char hquote hescape hbody⟩
    · exact Or.inr fun n => by rw [unclosedFrom, if_neg hescape, if_neg hquote, hnone]

theorem closedOrNone (quote : Char) (t : Text) : ClosedOrNone quote t := by
  -- Two characters at a time, since a backslash takes in the one behind it.
  induction t using List.twoStepInduction with
  | nil => exact Or.inr fun _ => rfl
  | singleton c =>
      by_cases hescape : c = '\\'
      · exact Or.inr fun n => by rw [unclosedFrom, if_pos hescape, unclosedFrom]
      · exact ClosedOrNone.cons (Or.inr fun _ => rfl) hescape
  | cons_cons c d rest ihrest ih =>
      by_cases hescape : c = '\\'
      · obtain ⟨body, behind, rfl, hbody⟩ | hnone := ihrest
        · exact Or.inl ⟨c :: d :: body, behind, rfl, hescape ▸ .escape hbody⟩
        · exact Or.inr fun n => by rw [unclosedFrom, if_pos hescape, unclosedFrom, hnone]
      · exact (ih d).cons hescape

theorem Lexeme.ne_nil {rest lexeme : Text} (h : Lexeme rest lexeme) : lexeme ≠ [] := by
  cases h <;> exact List.cons_ne_nil _ _

/-- Nothing behind a lexeme but the next character has to do with the scan over it. -/
theorem unclosedFrom_lexeme {rest lexeme : Text} (h : Lexeme rest lexeme)
    (hclosed : ∀ behind, ¬ Unclosed (lexeme ++ rest) [] behind) {x : Text} (hx : x <+: rest)
    (n : Nat) :
    unclosedFrom .plain n (lexeme ++ x) = unclosedFrom .plain (n + lexeme.length) x := by
  cases h with
  | @char c hquote hopener =>
      have hplain : ¬ (c = '/' ∧ x.head? = some '*') := by
        rintro ⟨rfl, hhead⟩
        obtain ⟨more, rfl⟩ := hx
        cases x with
        | nil => cases hhead
        | cons d x =>
            cases hhead
            exact hclosed _ ⟨rfl, .start, hopener _ rfl⟩
      rw [List.singleton_append, unclosedFrom, if_neg (by simp [hquote]), if_neg hplain,
        List.length_singleton]
  | @literal quote body hquote hbody =>
      have hescape : quote ≠ '\\' := by
        rintro rfl
        cases hquote
      rw [List.cons_append, List.append_assoc, List.singleton_append, unclosedFrom, if_pos hquote,
        unclosedFrom_literalBody hbody, unclosedFrom, if_neg hescape, if_pos rfl]
      congr 1
      simp only [List.length_cons, List.length_append, List.length_nil]
      omega
  | @comment body hbody =>
      have hcloses : closes ('*' :: (body ++ '*' :: '/' :: x)).tail = true :=
        closes_iff.mpr ⟨body, x, by simp⟩
      have hsplit : '/' :: '*' :: (body ++ ['*', '/']) ++ x =
          '/' :: '*' :: (body ++ '*' :: '/' :: x) := by simp
      rw [hsplit, unclosedFrom, if_neg (by decide), if_pos ⟨rfl, rfl⟩, if_pos hcloses, unclosedFrom,
        unclosedFrom_comment hbody]
      congr 1
      simp only [List.length_cons, List.length_append, List.length_nil]
      omega

theorem unclosedFrom_opener {behind : Text} (h : ¬ ['*', '/'] <:+: behind) (n : Nat) :
    unclosedFrom .plain n ('/' :: '*' :: behind) =
      if behind.head? = some '!' then none else some n := by
  have hcloses : ¬ closes ('*' :: behind).tail = true := mt closes_iff.mp h
  rw [unclosedFrom, if_neg (by decide), if_pos ⟨rfl, rfl⟩, if_neg hcloses]
  rfl

/-- Every text but the empty one starts with a lexeme, or with a literal that swallows the rest. -/
theorem lexeme_or_none {t : Text} (h : t ≠ []) :
    (∃ lexeme rest, t = lexeme ++ rest ∧ Lexeme rest lexeme) ∨
      ∀ n, unclosedFrom .plain n t = none := by
  obtain ⟨c, rest, rfl⟩ := List.exists_cons_of_ne_nil h
  by_cases hquote : isQuote c = true
  · obtain ⟨body, behind, rfl, hbody⟩ | hnone := closedOrNone c rest
    · exact Or.inl ⟨c :: (body ++ [c]), behind, by simp, .literal hquote hbody⟩
    · exact Or.inr fun n => by rw [unclosedFrom, if_pos hquote, hnone]
  · by_cases hcomment : ∃ body, c :: rest = '/' :: '*' :: body ∧ closes body = true
    · obtain ⟨more, hsplit, hcloses⟩ := hcomment
      obtain ⟨body, behind, rfl, hbody⟩ := exists_end hcloses
      exact Or.inl ⟨'/' :: '*' :: (body ++ ['*', '/']), behind, by simp [hsplit], .comment hbody⟩
    · refine Or.inl ⟨[c], rest, rfl, .char (by simpa using hquote) fun body hsplit hend => ?_⟩
      exact hcomment ⟨body, hsplit, closes_iff.mpr hend⟩

/-! ### The scan over a text -/

theorem Unclosed.behind {rest lexeme u v : Text} (h : Unclosed rest u v)
    (hlexeme : Lexeme rest lexeme) : Unclosed (lexeme ++ rest) (lexeme ++ u) v where
  split := by rw [h.split, List.append_assoc]
  outside := .behind (h.split ▸ hlexeme) h.outside
  endless := h.endless

theorem unclosedFrom_of_closed {t : Text} (h : ∀ u v, ¬ Unclosed t u v) (n : Nat) :
    unclosedFrom .plain n t = none := by
  induction hsize : t.length using Nat.strong_induction_on generalizing t n with
  | _ size ih =>
      by_cases hnil : t = []
      · rw [hnil, unclosedFrom]
      · obtain ⟨lexeme, rest, rfl, hlexeme⟩ | hnone := lexeme_or_none hnil
        · rw [unclosedFrom_lexeme hlexeme (h []) List.prefix_rfl]
          refine ih rest.length ?_ (fun u v hrest => h _ v (hrest.behind hlexeme)) _ rfl
          rw [← hsize, List.length_append]
          exact Nat.lt_add_of_pos_left (List.length_pos_iff.mpr hlexeme.ne_nil)
        · exact hnone n

/-- The scan goes on behind the lexemes in front of the first unclosed comment, also where they are
all there is. -/
theorem unclosedFrom_outside {after before : Text} (h : Outside after before)
    (hfirst : ∀ u v, Unclosed (before ++ after) u v → before.length ≤ u.length) {x : Text}
    (hx : x <+: after) (n : Nat) :
    unclosedFrom .plain n (before ++ x) = unclosedFrom .plain (n + before.length) x := by
  induction h generalizing n with
  | start => rfl
  | @behind lexeme before hlexeme _ ih =>
      have hclosed : ∀ v, ¬ Unclosed (lexeme ++ (before ++ after)) [] v := by
        intro v hopen
        have hlength := hfirst [] v (List.append_assoc lexeme before after ▸ hopen)
        exact hlexeme.ne_nil (List.append_eq_nil_iff.mp (List.length_eq_zero_iff.mp
          (Nat.le_zero.mp hlength))).1
      have hrest : ∀ u v, Unclosed (before ++ after) u v → before.length ≤ u.length := by
        intro u v hopen
        have hlength := hfirst (lexeme ++ u) v
          (List.append_assoc lexeme before after ▸ hopen.behind hlexeme)
        simpa using hlength
      rw [List.append_assoc, unclosedFrom_lexeme hlexeme hclosed
        ((List.prefix_append_right_inj before).mpr hx), ih hrest, List.length_append, Nat.add_assoc]

theorem exists_first {t u v : Text} (h : Unclosed t u v) : ∃ u' v', FirstUnclosed t u' v' := by
  classical
  have hex : ∃ size u v, Unclosed t u v ∧ u.length = size := ⟨u.length, u, v, h, rfl⟩
  obtain ⟨u', v', hopen, hsize⟩ := Nat.find_spec hex
  exact ⟨u', v', hopen, fun u v h => hsize ▸ Nat.find_min' hex ⟨u, v, h, rfl⟩⟩

theorem cutUnclosed_of_closed {t : Text} (h : ∀ u v, ¬ Unclosed t u v) : cutUnclosed t = t := by
  rw [cutUnclosed, unclosedFrom_of_closed h]

theorem cutUnclosed_first {t before behind : Text} (h : FirstUnclosed t before behind) :
    cutUnclosed t = if behind.head? = some '!' then t else before := by
  obtain ⟨⟨rfl, houtside, hendless⟩, hfirst⟩ := h
  rw [cutUnclosed, unclosedFrom_outside houtside hfirst List.prefix_rfl,
    unclosedFrom_opener hendless]
  split_ifs
  · rfl
  · simp

theorem cutUnclosed_before {t before behind : Text} (h : FirstUnclosed t before behind) :
    cutUnclosed before = before := by
  obtain ⟨⟨rfl, houtside, _⟩, hfirst⟩ := h
  have hscan := unclosedFrom_outside houtside hfirst List.nil_prefix 0
  rw [List.append_nil] at hscan
  rw [cutUnclosed, hscan, unclosedFrom]

theorem cutUnclosed_idem (t : Text) : cutUnclosed (cutUnclosed t) = cutUnclosed t := by
  by_cases h : ∃ u v, Unclosed t u v
  · obtain ⟨u, v, hopen⟩ := h
    obtain ⟨before, behind, hfirst⟩ := exists_first hopen
    have hcut := cutUnclosed_first hfirst
    split_ifs at hcut
    · rw [hcut, hcut]
    · rw [hcut, cutUnclosed_before hfirst]
  · have hcut := cutUnclosed_of_closed fun u v hopen => h ⟨u, v, hopen⟩
    rw [hcut, hcut]

end QueryDigest.Comment
