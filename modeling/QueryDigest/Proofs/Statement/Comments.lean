import QueryDigest.Proofs.Pattern.Keywords
import QueryDigest.Proofs.Pattern.Outline
import QueryDigest.Statement.Comment

/-!
Comments and literals. What stands in front of the first quote of a statement keeps its comments
only if it has some, and no pass over the comments behind that quote reaches in front of it.
-/

namespace QueryDigest.Comment

open Pattern

/-- A text without the openers of comments. -/
def Unmarked (t : Text) : Prop :=
  ¬ ['/', '*'] <:+: t ∧ ¬ ['-', '-'] <:+: t ∧ '#' ∉ t

instance : DecidablePred Unmarked :=
  fun _ => inferInstanceAs (Decidable (_ ∧ _ ∧ _))

/-- A text without a character stands on one side of it. -/
theorem infix_of_between {k u v : Text} {b : Char} (hb : b ∉ k) (h : k <:+: u ++ b :: v) :
    k <:+: u ∨ k <:+: v := by
  obtain h | h | ⟨w, w', rfl, hw, hw'⟩ := List.infix_append_iff.mp h
  · exact Or.inl h
  · obtain hstart | hbehind := List.infix_cons_iff.mp h
    · cases k with
      | nil => exact Or.inl (List.nil_infix)
      | cons c k =>
          obtain rfl := (List.cons_prefix_cons.mp hstart).1
          exact absurd List.mem_cons_self hb
    · exact Or.inr hbehind
  · cases w' with
    | nil => exact Or.inl (by simpa using hw.isInfix)
    | cons c w' =>
        obtain rfl := (List.cons_prefix_cons.mp hw').1
        exact absurd (List.mem_append_right w List.mem_cons_self) hb

theorem Unmarked.quote {u v : Text} (hu : Unmarked u) (hv : Unmarked v) :
    Unmarked (u ++ '\'' :: v) := by
  refine ⟨fun h => ?_, fun h => ?_, fun h => ?_⟩
  · exact (infix_of_between (by decide) h).elim hu.1 hv.1
  · exact (infix_of_between (by decide) h).elim hu.2.1 hv.2.1
  · obtain h | h := List.mem_append.mp h
    · exact hu.2.2 h
    · exact hv.2.2 (List.mem_of_ne_of_mem (by decide) h)

/-- A character that opens a comment in front of `rest`. -/
def Opener (c : Char) (rest : Text) : Prop :=
  (c = '/' ∧ rest.head? = some '*') ∨ (c = '-' ∧ rest.head? = some '-') ∨ c = '#'

/-- The matches of a pattern start with the opener of a comment. -/
def OpensComment (p : Pattern) : Prop :=
  ∀ {before rest : Text} {c : Char} {h : Hit}, p.matchAt? ⟨before, c :: rest⟩ = some h →
    Opener c rest

theorem opener_of_start {x y c : Char} {rest : Text} (h : [x, y] <+: c :: rest) :
    c = x ∧ rest.head? = some y := by
  obtain ⟨hx, hy⟩ := List.cons_prefix_cons.mp h
  cases rest with
  | nil => cases List.prefix_nil.mp hy
  | cons d rest => exact ⟨hx.symm, by rw [← (List.cons_prefix_cons.mp hy).1]; rfl⟩

theorem block_opens {before rest : Text} {c : Char} {h : Hit}
    (hmatch : block.matchAt? ⟨before, c :: rest⟩ = some h) : c = '/' ∧ rest.head? = some '*' := by
  obtain ⟨a, hrun, _⟩ := matchAt?_eq_some hmatch
  rw [block, run_append, run_append, run_append] at hrun
  exact opener_of_start (run_exactly_eq_some hrun)

theorem version_opens {before rest : Text} {c : Char} {h : Hit}
    (hmatch : version.matchAt? ⟨before, c :: rest⟩ = some h) : c = '/' ∧ rest.head? = some '*' := by
  obtain ⟨a, hrun, _⟩ := matchAt?_eq_some hmatch
  rw [version, run_append, run_append, run_append, run_append] at hrun
  exact opener_of_start (run_exactly_eq_some hrun)

theorem line_opens {before rest : Text} {c : Char} {h : Hit}
    (hmatch : line.matchAt? ⟨before, c :: rest⟩ = some h) :
    (c = '-' ∧ rest.head? = some '-') ∨ c = '#' := by
  obtain ⟨a, hrun, _⟩ := matchAt?_eq_some hmatch
  rw [line, run_append, run_append, run_or, Option.or_eq_some_iff] at hrun
  obtain hrun | ⟨_, hrun⟩ := hrun
  · exact Or.inl (opener_of_start (run_exactly_eq_some hrun))
  · exact Or.inr (List.cons_prefix_cons.mp (run_exactly_eq_some hrun)).1.symm

theorem opensComment_block : OpensComment block :=
  fun hmatch => Or.inl (block_opens hmatch)

theorem opensComment_version : OpensComment version :=
  fun hmatch => Or.inl (version_opens hmatch)

theorem opensComment_line : OpensComment line :=
  fun hmatch => Or.inr (line_opens hmatch)

theorem Unmarked.not_opener {t u₁ u₂ v : Text} {c : Char} (ht : Unmarked t)
    (h : t = u₁ ++ c :: u₂) (hv : v.head? ≠ some '*' ∧ v.head? ≠ some '-') :
    ¬ Opener c (u₂ ++ v) := by
  have hnext : ∀ x y, ¬ [x, y] <:+: t → v.head? ≠ some y →
      ¬ (c = x ∧ (u₂ ++ v).head? = some y) := by
    rintro x y hinfix hv ⟨rfl, hhead⟩
    cases u₂ with
    | nil => exact hv hhead
    | cons d u₂ =>
        cases hhead
        exact hinfix ⟨u₁, u₂, by simp [h]⟩
  rintro (hblock | hline | rfl)
  · exact hnext _ _ ht.1 hv.1 hblock
  · exact hnext _ _ ht.2.1 hv.2 hline
  · exact ht.2.2 (h ▸ List.mem_append_right u₁ List.mem_cons_self)

theorem OpensComment.none {p : Pattern} (hp : OpensComment p) {before rest : Text} {c : Char}
    (h : ¬ Opener c rest) : p.matchAt? ⟨before, c :: rest⟩ = none := by
  cases hmatch : p.matchAt? ⟨before, c :: rest⟩ with
  | none => rfl
  | some hit => exact absurd (hp hmatch) h

/-! ### Passes over closed comments -/

section

variable {p : Pattern} (hp : OpensComment p)

include hp

theorem outlineFrom_unmarked {s : Text} (hs : Unmarked s) (inside : Nat) (before : Text) :
    p.outlineFrom inside before s = (s.drop inside).map .inl := by
  have hnone : ∀ (u₁ u₂ : Text) (c : Char), s = u₁ ++ c :: u₂ → ¬ Opener c u₂ := by
    intro u₁ u₂ c h
    have hopener := hs.not_opener h (v := []) (by simp)
    rwa [List.append_nil] at hopener
  clear hs
  induction s generalizing inside before with
  | nil => simp
  | cons c rest ih =>
      have hrest : ∀ (u₁ u₂ : Text) (d : Char), rest = u₁ ++ d :: u₂ → ¬ Opener d u₂ := by
        intro u₁ u₂ d h
        exact hnone (c :: u₁) u₂ d (by rw [h, List.cons_append])
      cases inside with
      | succ inside => exact ih inside (c :: before) hrest
      | zero =>
          have hkept : ∀ h, p.matchAt? ⟨before, c :: rest⟩ = some h → h.text = [] := by
            intro h hmatch
            exact absurd (hp hmatch) (hnone [] rest c rfl)
          rw [outlineFrom_kept hkept, ih 0 (c :: before) hrest]
          rfl

variable (hnear : p.Near)

include hnear

theorem outlineFrom_quote {u : Text} (hu : Unmarked u) (t : Text) :
    p.outlineFrom 0 [] (u ++ '\'' :: t) =
      u.map .inl ++ .inl '\'' :: p.outlineFrom 0 ['\''] t := by
  have hquote : ∀ before h, p.matchAt? ⟨before, '\'' :: t⟩ = some h → h.text = [] := by
    intro before h hmatch
    exact absurd (hp hmatch) (by simp [Opener])
  rw [outlineFrom_of_no_match [] _ fun u₁ c u₂ h => hp.none (hu.not_opener h (by simp)),
    outlineFrom_kept (hquote _),
    outlineFrom_before hnear 0 ('\'' :: (u.reverse ++ [])) ['\''] rfl]

theorem replaceAll_quote {u : Text} (hu : Unmarked u) (r t : Text) :
    p.replaceAll (fun _ => r) (u ++ '\'' :: t) =
      u ++ '\'' :: write (fun _ => r) (p.outlineFrom 0 ['\''] t) := by
  rw [replaceAll_const, outlineFrom_quote hp hnear hu, write_append, write_map_kept, write_kept]

end

theorem near_block : block.Near := by
  simp [block]

theorem near_line : line.Near := by
  simp [line]

theorem near_version : version.Near := by
  simp [version]

theorem mem_of_mem_write_nil {p : Pattern} {before t : Text} {c : Char}
    (h : c ∈ write (fun _ => []) (p.outlineFrom 0 before t)) : c ∈ t := by
  obtain h | h := mem_write_const h
  · rwa [write_outlineFrom] at h
  · exact absurd h List.not_mem_nil

/-- What is left behind a quote when closed comments are removed from a text. -/
def closedBehind (t : Text) : Text :=
  write (fun _ => []) (line.outlineFrom 0 ['\'']
    (write (fun _ => []) (block.outlineFrom 0 ['\''] t)))

theorem removeAll_closed {p : Text} (hp : Unmarked p) (t : Text) :
    line.removeAll (block.removeAll (p ++ '\'' :: t)) = p ++ '\'' :: closedBehind t := by
  rw [removeAll, removeAll, replaceAll_quote opensComment_block near_block hp,
    replaceAll_quote opensComment_line near_line hp]
  rfl

theorem mem_of_mem_closedBehind {t : Text} {c : Char} (h : c ∈ closedBehind t) : c ∈ t :=
  mem_of_mem_write_nil (mem_of_mem_write_nil h)

theorem write_block {s : Text} (hs : Unmarked s) {b : Text} (inside : Nat) (before : Text) :
    ∃ b', (∀ c ∈ b', c ∈ b) ∧
      (write (fun _ => []) (block.outlineFrom inside before (b ++ '\'' :: s)) = b' ++ '\'' :: s ∨
        ∃ k, write (fun _ => []) (block.outlineFrom inside before (b ++ '\'' :: s)) =
          b' ++ s.drop k) := by
  induction b generalizing inside before with
  | nil =>
      refine ⟨[], by simp, ?_⟩
      cases inside with
      | zero =>
          have hkept : ∀ h, block.matchAt? ⟨before, '\'' :: s⟩ = some h → h.text = [] := by
            intro h hmatch
            exact absurd (opensComment_block hmatch) (by simp [Opener])
          refine Or.inl ?_
          rw [List.nil_append, outlineFrom_kept hkept, outlineFrom_unmarked opensComment_block hs,
            write_kept, write_map_kept]
          rfl
      | succ inside =>
          refine Or.inr ⟨inside, ?_⟩
          rw [List.nil_append, outlineFrom_inside, outlineFrom_unmarked opensComment_block hs,
            write_map_kept]
          rfl
  | cons c b ih =>
      cases inside with
      | succ inside =>
          obtain ⟨b', hb', hwrite⟩ := ih inside (c :: before)
          exact ⟨b', fun d hd => List.mem_cons_of_mem c (hb' d hd), hwrite⟩
      | zero =>
          obtain hkept | ⟨h, d, text, hmatch, htext⟩ :=
            kept_or_hit block ⟨before, c :: (b ++ '\'' :: s)⟩
          · obtain ⟨b', hb', hwrite⟩ := ih 0 (c :: before)
            refine ⟨c :: b', ?_, ?_⟩
            · intro d hd
              obtain rfl | hd := List.mem_cons.mp hd
              · exact List.mem_cons_self
              · exact List.mem_cons_of_mem c (hb' d hd)
            · rw [List.cons_append, outlineFrom_kept hkept, write_kept]
              obtain hwrite | ⟨k, hwrite⟩ := hwrite
              · exact Or.inl (by rw [hwrite, List.cons_append])
              · exact Or.inr ⟨k, by rw [hwrite, List.cons_append]⟩
          · obtain ⟨b', hb', hwrite⟩ := ih text.length (c :: before)
            refine ⟨b', fun d hd => List.mem_cons_of_mem c (hb' d hd), ?_⟩
            rw [List.cons_append, outlineFrom_hit hmatch htext, write_found, List.nil_append]
            exact hwrite

/-- Behind a quote either the closing quote is gone, or all that follows it is still there. -/
theorem closedBehind_literal {b s : Text} (hb : '\'' ∉ b) (hs : Unmarked s) (hq : '\'' ∉ s) :
    '\'' ∉ closedBehind (b ++ '\'' :: s) ∨
      ∃ b', (∀ c ∈ b', c ∈ b) ∧ closedBehind (b ++ '\'' :: s) = b' ++ '\'' :: s := by
  obtain ⟨b', hb', hwrite | ⟨k, hwrite⟩⟩ := write_block hs (b := b) 0 ['\'']
  · obtain ⟨b'', hb'', hline⟩ := write_stop near_line ['\''] (by decide)
      List.mem_cons_self [] ['\''] b'
    refine Or.inr ⟨b'', ?_, ?_⟩
    · intro c hc
      exact (hb'' c hc).elim (hb' c) fun h => absurd h List.not_mem_nil
    · rw [closedBehind, hwrite, hline, outlineFrom_unmarked opensComment_line hs, write_map_kept]
      rfl
  · refine Or.inl ?_
    intro hmem
    rw [closedBehind, hwrite] at hmem
    obtain hmem | hmem := List.mem_append.mp (mem_of_mem_write_nil hmem)
    · exact hb (hb' _ hmem)
    · exact hq (List.mem_of_mem_drop hmem)

/-! ### The pass over an unclosed comment -/

theorem unclosedFrom_plain {p : Text} (hquotes : ∀ c ∈ p, isQuote c = false)
    (hp : ¬ ['/', '*'] <:+: p) (n : Nat) {v : Text} (hv : v.head? ≠ some '*') :
    unclosedFrom .plain n (p ++ v) = unclosedFrom .plain (n + p.length) v := by
  induction p generalizing n with
  | nil => rfl
  | cons c p ih =>
      have hc : isQuote c = false := hquotes c List.mem_cons_self
      have hopener : ¬ (c = '/' ∧ (p ++ v).head? = some '*') := by
        rintro ⟨rfl, hhead⟩
        cases p with
        | nil => exact hv hhead
        | cons d p =>
            cases hhead
            exact hp ⟨[], p, rfl⟩
      have hrest : ¬ ['/', '*'] <:+: p := fun h => hp (h.trans (List.suffix_cons c p).isInfix)
      rw [List.cons_append, unclosedFrom, if_neg (by simp [hc]), if_neg hopener,
        ih (fun d hd => hquotes d (List.mem_cons_of_mem c hd)) hrest, List.length_cons,
        Nat.add_right_comm, Nat.add_assoc]

theorem unclosedFrom_quoted {q : Char} {b : Text} (hq : q ∉ b) (hescape : '\\' ∉ b) (n : Nat)
    (v : Text) :
    unclosedFrom (.quoted q) n (b ++ v) = unclosedFrom (.quoted q) (n + b.length) v := by
  induction b generalizing n with
  | nil => rfl
  | cons c b ih =>
      rw [List.mem_cons, not_or] at hq hescape
      rw [List.cons_append, unclosedFrom, if_neg (Ne.symm hescape.1), if_neg (Ne.symm hq.1),
        ih hq.2 hescape.2, List.length_cons, Nat.add_right_comm, Nat.add_assoc]

/-- A comment is read up to the first end of one. -/
theorem unclosedFrom_comment {body : Text} (hbody : ¬ ['*', '/'] <:+: body ++ ['*']) (n : Nat)
    (rest : Text) :
    unclosedFrom .comment n (body ++ '*' :: '/' :: rest) =
      unclosedFrom .plain (n + (body.length + 2)) rest := by
  induction body generalizing n with
  | nil => rfl
  | cons c body ih =>
      rw [List.cons_append, List.infix_cons_iff, not_or] at hbody
      have hend : ¬ (c = '*' ∧ (body ++ '*' :: '/' :: rest).head? = some '/') := by
        rintro ⟨rfl, hhead⟩
        cases body with
        | nil => cases hhead
        | cons d body =>
            cases hhead
            exact hbody.1 ⟨body ++ ['*'], rfl⟩
      rw [List.cons_append, unclosedFrom, if_neg hend, ih hbody.2, List.length_cons]
      congr 1
      omega

theorem unclosedFrom_literal {b s : Text} (hb : '\'' ∉ b) (hb' : '\\' ∉ b)
    (hs : ∀ c ∈ s, isQuote c = false) (hs' : ¬ ['/', '*'] <:+: s) (n : Nat) :
    unclosedFrom (.quoted '\'') n (b ++ '\'' :: s) = none := by
  rw [unclosedFrom_quoted hb hb', unclosedFrom, if_neg (by decide), if_pos rfl]
  have hplain := unclosedFrom_plain hs hs' (n + b.length + 1) (v := []) (by simp)
  rwa [List.append_nil] at hplain

theorem cutUnclosed_quote {p : Text} (hp : ∀ c ∈ p, isQuote c = false)
    (hp' : ¬ ['/', '*'] <:+: p) {t : Text} (ht : ∀ n, unclosedFrom (.quoted '\'') n t = none) :
    cutUnclosed (p ++ '\'' :: t) = p ++ '\'' :: t := by
  rw [cutUnclosed, unclosedFrom_plain hp hp' 0 (by simp), unclosedFrom, if_pos (by decide), ht]

/-! ### Comments behind a quote -/

/-- What is left behind the first quote of a statement without its comments. -/
def erasedBehind (p t : Text) : Text :=
  (erase (p ++ '\'' :: t)).drop (p.length + 1)

theorem unclosedFrom_closedBehind {b s : Text} (hb : ∀ c ∈ b, c ≠ '\'' ∧ c ≠ '\\')
    (hs : Unmarked s) (hs' : ∀ c ∈ s, isQuote c = false ∧ c ≠ '\\') (n : Nat) :
    unclosedFrom (.quoted '\'') n (closedBehind (b ++ '\'' :: s)) = none := by
  have hquote : '\'' ∉ s := fun h => absurd (hs' _ h).1 (by decide)
  obtain hnot | ⟨b', hb', hbehind⟩ := closedBehind_literal (fun h => (hb _ h).1 rfl) hs hquote
  · have hescape : '\\' ∉ closedBehind (b ++ '\'' :: s) := by
      intro hmem
      obtain hmem | hmem := List.mem_append.mp (mem_of_mem_closedBehind hmem)
      · exact (hb _ hmem).2 rfl
      · obtain hmem | hmem := List.mem_cons.mp hmem
        · cases hmem
        · exact (hs' _ hmem).2 rfl
    have hnone := unclosedFrom_quoted hnot hescape n []
    rw [List.append_nil] at hnone
    rw [hnone]
    rfl
  · rw [hbehind]
    exact unclosedFrom_literal (fun h => (hb _ (hb' _ h)).1 rfl) (fun h => (hb _ (hb' _ h)).2 rfl)
      (fun c hc => (hs' c hc).1) hs.1 n

theorem erase_eq (t : Text) :
    erase t = eraseClosedAndCut t ∨
      ∃ r, erase t = version.replaceAll (fun _ => r) (eraseClosedAndCut t) := by
  unfold erase
  cases hfind : showQualifier.find (eraseClosedAndCut t) with
  | none => exact Or.inl (by simp only [hfind])
  | some h => exact Or.inr ⟨h.group 0, by simp only [hfind]⟩

/-- Erasing comments leaves what stands in front of a quote that no comment is left open behind. -/
theorem erase_quote {p t : Text} (hp : Unmarked p) (hp' : ∀ c ∈ p, isQuote c = false)
    (ht : ∀ n, unclosedFrom (.quoted '\'') n (closedBehind t) = none) :
    ∃ seen, erase (p ++ '\'' :: t) = p ++ '\'' :: seen := by
  have hclosed : eraseClosedAndCut (p ++ '\'' :: t) = p ++ '\'' :: closedBehind t := by
    rw [eraseClosedAndCut, removeAll_closed hp, cutUnclosed_quote hp' hp.1 ht]
  obtain herase | ⟨r, herase⟩ := erase_eq (p ++ '\'' :: t)
  · rw [herase, hclosed]
    exact ⟨_, rfl⟩
  · rw [herase, hclosed, replaceAll_quote opensComment_version near_version hp]
    exact ⟨_, rfl⟩

/-- Between quotes no comment is left open, if no further quote stands in front of the end. -/
theorem unclosedFrom_last_quote {b tail : Text} (hb : '\'' ∉ b) (htail : tail = [] ∨ tail = ['\''])
    {s : Surroundings} (hs : s = .quoted '\'' ∨ s = .escaped '\'') (n : Nat) :
    unclosedFrom s n (b ++ tail) = none := by
  induction b generalizing s n with
  | nil => obtain rfl | rfl := htail <;> obtain rfl | rfl := hs <;> rfl
  | cons c b ih =>
      rw [List.mem_cons, not_or] at hb
      obtain rfl | rfl := hs
      · rw [List.cons_append, unclosedFrom, if_neg (Ne.symm hb.1)]
        split
        · exact ih hb.2 (Or.inr rfl) _
        · exact ih hb.2 (Or.inl rfl) _
      · exact ih hb.2 (Or.inl rfl) _

/-- Erasing comments leaves what stands in front of a literal at the end of a text, whatever the
literal holds but quotes. -/
theorem erase_last_literal {p b : Text} (hp : Unmarked p) (hp' : ∀ c ∈ p, isQuote c = false)
    (hb : '\'' ∉ b) : ∃ seen, erase (p ++ '\'' :: (b ++ ['\''])) = p ++ '\'' :: seen := by
  refine erase_quote hp hp' fun n => ?_
  obtain hnot | ⟨b', hb', hbehind⟩ :=
    closedBehind_literal (s := []) hb (by decide) List.not_mem_nil
  · have hnone := unclosedFrom_last_quote hnot (Or.inl rfl) (Or.inl rfl) n
    rwa [List.append_nil] at hnone
  · rw [hbehind]
    exact unclosedFrom_last_quote (fun h => hb (hb' _ h)) (Or.inr rfl) (Or.inl rfl) n

/-- Erasing comments leaves a statement up to its first literal as it is. -/
theorem erase_literal {p b s : Text} (hp : Unmarked p) (hp' : ∀ c ∈ p, isQuote c = false)
    (hb : ∀ c ∈ b, c ≠ '\'' ∧ c ≠ '\\') (hs : Unmarked s)
    (hs' : ∀ c ∈ s, isQuote c = false ∧ c ≠ '\\') :
    erase (p ++ '\'' :: (b ++ '\'' :: s)) =
      p ++ '\'' :: erasedBehind p (b ++ '\'' :: s) := by
  obtain ⟨seen, hseen⟩ := erase_quote hp hp' (unclosedFrom_closedBehind hb hs hs')
  rw [erasedBehind, hseen]
  simp [List.drop_append]

end QueryDigest.Comment
