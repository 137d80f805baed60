import QueryDigest.Proofs.Pattern.Outline
import QueryDigest.Proofs.Pattern.Words
import QueryDigest.Proofs.Text.Respacing

/-!
Runs of keywords, of white space and of as many characters as possible, and searches that pass over
a text. A keyword does not run on another one, white space is passed over as a whole, so that an
attempt goes on behind it in one way only, and a longest run goes on from the last place where it
can.
-/

namespace QueryDigest

open Unicode (foldLetter isBlank isWord)

namespace Text

open Pattern (isWordAt)

/-- A word that ends where words end in a text lies at the end of its first word or behind it. -/
theorem word_behind {x r u w rest : Text} (hx : ∀ c ∈ x, isWord c = true)
    (hr : isWordAt r.head? = false) (hw : ∀ c ∈ w, isWord c = true)
    (hrest : isWordAt rest.head? = false) (h : x ++ r = u ++ (w ++ rest)) :
    (x = u ++ w ∧ rest = r) ∨ ∃ u', u = x ++ u' ∧ r = u' ++ (w ++ rest) := by
  obtain ⟨u', hu, hr'⟩ | ⟨v, hv, hsplit⟩ := List.append_eq_append_iff.mp h
  · exact Or.inr ⟨u', hu, hr'⟩
  · have hword : ∀ c ∈ v, isWord c = true := fun c hc => hx c (hv ▸ List.mem_append_right u hc)
    obtain rfl : w = v := word_unique hsplit hw hword hrest hr
    exact Or.inl ⟨hv, List.append_cancel_left hsplit⟩

/-- A word lies behind a mark in front of it. -/
theorem word_behind_marks {x r u w rest : Text} (hx : ∀ c ∈ x, isWord c = false)
    (hne : w ≠ []) (hw : ∀ c ∈ w, isWord c = true) (h : x ++ r = u ++ (w ++ rest)) :
    ∃ u', u = x ++ u' ∧ r = u' ++ (w ++ rest) := by
  obtain ⟨u', hu, hr⟩ | ⟨v, hv, hsplit⟩ := List.append_eq_append_iff.mp h
  · exact ⟨u', hu, hr⟩
  · cases v with
    | nil => exact ⟨[], by simp [hv], hsplit.symm⟩
    | cons c v =>
        have hc : isWordAt (c :: v ++ r).head? = true := hsplit ▸ isWordAt_head? hne hw rest
        exact absurd hc (by simp [isWordAt, hx c (by simp [hv])])

theorem Blank.edge {bs : Text} (h : Blank bs) (t : Text) : isWordAt (bs ++ t).head? = false := by
  obtain ⟨b, more, hhead, hb⟩ := h.head t
  rw [hhead]
  exact Unicode.isWord_of_isBlank hb

end Text

namespace Pattern

open Text (Blank)

/-- A keyword does not run on a text that reads like neither its start nor more than it. -/
theorem run_keyword_apart {k w rest : Text}
    (hapart : ¬ k.map foldLetter <+: w.map foldLetter ∧ ¬ w.map foldLetter <+: k.map foldLetter)
    {a : Attempt} (hafter : a.after = w ++ rest) (onward : Onward) :
    (keyword k).run a onward = none := by
  cases hrun : (keyword k).run a onward with
  | none => rfl
  | some b =>
      obtain ⟨m, more, hsplit, hm, _⟩ := run_keyword_eq_some hrun
      have hstart := fold_starts hsplit hafter
      rw [hm] at hstart
      exact absurd hstart (not_or.mpr hapart)

theorem nonblank_of_upper {w : Text} (h : (w.map foldLetter).all Char.isUpper = true) :
    ∀ c ∈ w, isBlank c = false := fun _ hc =>
  Unicode.isBlank_of_isWord
    (Unicode.isWord_of_isUpper_foldLetter (List.all_eq_true.mp h _ (List.mem_map_of_mem hc)))

/-- What reads as a capital word starts and ends with something else than white space. -/
theorem nonblank_of_fold {w k : Text} (h : w.map foldLetter = k) (hne : k ≠ [])
    (hupper : k.all Char.isUpper = true) :
    (∀ rest, ∀ c, (w ++ rest).head? = some c → isBlank c = false) ∧
      ∃ u d, w = u ++ [d] ∧ isBlank d = false := by
  have hnonblank := nonblank_of_upper (h ▸ hupper)
  have hw : w ≠ [] := fun hnil => hne (by rw [← h, hnil]; rfl)
  constructor
  · intro rest c hc
    obtain ⟨d, w, rfl⟩ := List.exists_cons_of_ne_nil hw
    cases hc
    exact hnonblank c List.mem_cons_self
  · obtain rfl | ⟨u, d, rfl⟩ := List.eq_nil_or_concat w
    · exact absurd rfl hw
    · exact ⟨u, d, List.concat_eq_append, hnonblank d (by simp)⟩

theorem run_blanks {bs rest : Text} (hbs : Blank bs)
    (hrest : ∀ c, rest.head? = some c → isBlank c = false) {a : Attempt}
    (hafter : a.after = bs ++ rest) (onward : Onward) :
    blanks.run a onward = onward (a.take bs rest) :=
  run_someOf hbs.nonempty hbs.blank hrest hafter onward

theorem run_someOf_eq (ok : Char → Bool) (a : Attempt) (onward : Onward) :
    (someOf ok).run a onward =
      if a.after.takeWhile ok = [] then none
      else onward (a.take (a.after.takeWhile ok) (a.after.dropWhile ok)) := by
  rw [someOf, run_append, run_one]
  cases hnext : a.next? ok with
  | none =>
      have hhead := Attempt.next?_eq_none.mp hnext
      have hnil : a.after.takeWhile ok = [] := by
        cases hafter : a.after with
        | nil => rfl
        | cons c rest =>
            rw [hafter] at hhead
            exact List.takeWhile_cons_of_neg (by simp [hhead c rfl])
      rw [if_pos hnil]
      rfl
  | some b =>
      obtain ⟨c, rest, hafter, hc, _⟩ := Attempt.next?_eq_some.mp hnext
      have hne : a.after.takeWhile ok ≠ [] := by
        rw [hafter, List.takeWhile_cons_of_pos hc]
        exact List.cons_ne_nil c _
      rw [if_neg hne, Option.bind_some, run_all, ← Attempt.furthest_of_some hnext,
        Attempt.furthest_eq_take]

theorem run_blanks_none {a : Attempt} (h : ∀ c, a.after.head? = some c → isBlank c = false)
    (onward : Onward) : blanks.run a onward = none := by
  rw [blanks, someOf, run_append, run_one_none h]

theorem run_blanks_eq_some {a b : Attempt} {onward : Onward}
    (h : blanks.run a onward = some b) :
    ∃ bs rest, a.after = bs ++ rest ∧ Blank bs ∧
      (∀ c, rest.head? = some c → isBlank c = false) ∧ onward (a.take bs rest) = some b := by
  rw [blanks, run_someOf_eq] at h
  split at h
  · cases h
  · rename_i hne
    exact ⟨_, _, List.takeWhile_append_dropWhile.symm,
      ⟨hne, fun c hc => List.mem_takeWhile_imp hc⟩, Text.head?_dropWhile_blank a.after, h⟩

/-- Of two ways to go on behind white space the first one counts, as it would without it. -/
theorem run_blanks_or (a : Attempt) (onward onward' : Onward) :
    (blanks.run a fun b => (onward b).or (onward' b)) =
      (blanks.run a onward).or (blanks.run a onward') := by
  rw [blanks, run_someOf_eq, run_someOf_eq, run_someOf_eq]
  split <;> rfl

/-! ### Longest runs -/

section

variable {ok : Char → Bool} {onward : Onward}

theorem run_asMany_stop {a : Attempt} (h : a.next? ok = none) :
    (asMany ok).run a onward = onward a := by
  rw [asMany, run_longest, Attempt.runs_of_none h, List.findSome?_singleton]

theorem run_asMany_step {a : Attempt} {c : Char} {rest : Text} (hafter : a.after = c :: rest)
    (hc : ok c = true) : (asMany ok).run a onward =
      ((asMany ok).run (a.take [c] rest) onward).or (onward a) := by
  have hnext : a.next? ok = some (a.take [c] rest) :=
    Attempt.next?_eq_some.mpr ⟨c, rest, hafter, hc, rfl⟩
  rw [asMany, run_longest, Attempt.runs_of_some hnext, List.findSome?_append,
    List.findSome?_singleton]
  rfl

theorem run_asMany_eq_some {a b : Attempt} (h : (asMany ok).run a onward = some b) :
    ∃ u v, a.after = u ++ v ∧ onward (a.take u v) = some b := by
  induction hafter : a.after generalizing a with
  | nil =>
      rw [run_asMany_stop (Attempt.next?_eq_none.mpr (by simp [hafter]))] at h
      exact ⟨[], a.after, hafter.symm, by rwa [Attempt.take_nil]⟩
  | cons c rest ih =>
      cases hc : ok c with
      | false =>
          rw [run_asMany_stop (Attempt.next?_eq_none.mpr (by simp [hafter, hc]))] at h
          exact ⟨[], a.after, hafter.symm, by rwa [Attempt.take_nil]⟩
      | true =>
          rw [run_asMany_step hafter hc, Option.or_eq_some_iff] at h
          obtain h | ⟨_, h⟩ := h
          · obtain ⟨u, v, rfl, honward⟩ := ih h rfl
            exact ⟨c :: u, v, rfl, by rwa [Attempt.take_take] at honward⟩
          · exact ⟨[], a.after, hafter.symm, by rwa [Attempt.take_nil]⟩

theorem run_asMany_none {a : Attempt}
    (h : ∀ u v, a.after = u ++ v → onward (a.take u v) = none) :
    (asMany ok).run a onward = none := by
  induction hafter : a.after generalizing a with
  | nil =>
      have hfirst := h [] a.after rfl
      rw [Attempt.take_nil] at hfirst
      rw [run_asMany_stop (Attempt.next?_eq_none.mpr (by simp [hafter])), hfirst]
  | cons c rest ih =>
      have hfirst := h [] a.after rfl
      rw [Attempt.take_nil] at hfirst
      cases hc : ok c with
      | false =>
          rw [run_asMany_stop (Attempt.next?_eq_none.mpr (by simp [hafter, hc])), hfirst]
      | true =>
          rw [run_asMany_step hafter hc, hfirst, Option.or_none]
          refine ih (fun u v hsplit => ?_) rfl
          rw [Attempt.take_take]
          exact h (c :: u) v (hafter.trans (congrArg (c :: ·) hsplit))

/-- A longest run ends at the last place from which the attempt goes on. -/
theorem run_asMany_last {w rest : Text} (hw : ∀ c ∈ w, ok c = true) {a b : Attempt}
    (hafter : a.after = w ++ rest)
    (hlate : ∀ u v, rest = u ++ v → u ≠ [] → onward (a.take (w ++ u) v) = none)
    (hend : onward (a.take w rest) = some b) : (asMany ok).run a onward = some b := by
  induction w generalizing a with
  | nil =>
      obtain rfl : a.after = rest := hafter
      rw [Attempt.take_nil] at hend
      cases hnext : a.next? ok with
      | none => rw [run_asMany_stop hnext, hend]
      | some a' =>
          obtain ⟨c, rest, hafter, hc, _⟩ := Attempt.next?_eq_some.mp hnext
          rw [run_asMany_step hafter hc, run_asMany_none fun u v hsplit => ?_, Option.none_or, hend]
          rw [Attempt.take_take]
          exact hlate (c :: u) v (hafter.trans (congrArg (c :: ·) hsplit)) (List.cons_ne_nil c u)
  | cons c w ih =>
      have hbehind : (asMany ok).run (a.take [c] (w ++ rest)) onward = some b := by
        refine ih (fun d hd => hw d (List.mem_cons_of_mem c hd)) rfl ?_ ?_
        · intro u v hsplit hu
          rw [Attempt.take_take]
          exact hlate u v hsplit hu
        · rwa [Attempt.take_take]
      have hafter' : a.after = c :: (w ++ rest) := hafter
      rw [run_asMany_step hafter' (hw c List.mem_cons_self), hbehind, Option.some_or]

end

/-! ### Searches -/

theorem Hit.group_single (before u w rest : Text) (length : Nat) {opened closed : Nat}
    (hopened : opened = u.length) (hclosed : closed = opened + w.length) :
    Hit.group ⟨⟨before, u ++ (w ++ rest)⟩, length, [(opened, closed)]⟩ 0 = w := by
  simp [Hit.group, hopened, hclosed]

theorem findBetween_cons (p : Pattern) (before : Text) (c : Char) (rest : Text) :
    p.findBetween before (c :: rest) =
      (p.matchAt? ⟨before, c :: rest⟩).or (p.findBetween (c :: before) rest) := by
  rw [findBetween]
  cases p.matchAt? ⟨before, c :: rest⟩ <;> rfl

theorem findBetween_skip {p : Pattern} {u : Text} (before rest : Text)
    (h : ∀ u₁ c u₂, u = u₁ ++ c :: u₂ →
      p.matchAt? ⟨u₁.reverse ++ before, c :: (u₂ ++ rest)⟩ = none) :
    p.findBetween before (u ++ rest) = p.findBetween (u.reverse ++ before) rest := by
  induction u generalizing before with
  | nil => rfl
  | cons c u ih =>
      have hrest : ∀ u₁ d u₂, u = u₁ ++ d :: u₂ →
          p.matchAt? ⟨u₁.reverse ++ c :: before, d :: (u₂ ++ rest)⟩ = none := by
        intro u₁ d u₂ hu
        have hnone := h (c :: u₁) d u₂ (by rw [hu, List.cons_append])
        rwa [List.reverse_cons, List.append_assoc] at hnone
      have hfirst : p.matchAt? ⟨before, c :: (u ++ rest)⟩ = none := h [] c u rfl
      rw [List.cons_append, findBetween_cons, hfirst, Option.none_or, ih _ hrest,
        List.reverse_cons, List.append_assoc]
      rfl

theorem infix_of_run {p q : Pattern} {k : Text} {a b : Attempt} {onward : Onward}
    (h : (p ++ keyword k ++ q).run a onward = some b) :
    k.map foldLetter <:+: a.after.map foldLetter := by
  rw [run_append, run_append] at h
  obtain ⟨c, ⟨taken, hafter, _, _⟩, h⟩ := run_eq_some h
  obtain ⟨w, rest, hrest, hw, _⟩ := run_keyword_eq_some h
  rw [hafter, hrest, List.map_append, List.map_append, hw]
  exact ⟨_, _, List.append_assoc _ _ _⟩

theorem infix_of_find {p q : Pattern} {k t : Text} {h : Hit}
    (hfind : (p ++ keyword k ++ q).find t = some h) : k.map foldLetter <:+: t.map foldLetter := by
  obtain ⟨u, v, rfl, hmatch⟩ := findBetween_some hfind
  obtain ⟨a, hrun, _⟩ := matchAt?_eq_some hmatch
  have hwithin : k.map foldLetter <:+: v.map foldLetter := infix_of_run hrun
  rw [List.map_append]
  exact hwithin.trans (List.suffix_append _ _).isInfix

/-- A keyword between the edges of a word is a word of the text. -/
theorem word_of_find {p : Pattern} {k t : Text} {h : Hit} (hk : k ≠ [])
    (hupper : (k.map foldLetter).all Char.isUpper = true)
    (hfind : (p ++ wordEdge ++ keyword k ++ wordEdge).find t = some h) :
    ∃ u w rest, t = u ++ (w ++ rest) ∧ w.map foldLetter = k.map foldLetter ∧
      isWordAt u.reverse.head? = false ∧ isWordAt rest.head? = false := by
  obtain ⟨u, v, rfl, hmatch⟩ := findBetween_some hfind
  obtain ⟨a, hrun, _⟩ := matchAt?_eq_some hmatch
  rw [run_append, run_append, run_append] at hrun
  obtain ⟨b, ⟨taken, hafter, hbefore, _⟩, hrun⟩ := run_eq_some hrun
  obtain ⟨hedge, hrun⟩ := run_wordEdge_some.mp hrun
  obtain ⟨w, rest, hsplit, hw, hrun⟩ := run_keyword_eq_some hrun
  obtain ⟨hedge', _⟩ := run_wordEdge_some.mp hrun
  obtain ⟨hne, hword⟩ := Text.word_of_fold hw hk hupper
  rw [hsplit, Text.isWordAt_head? hne hword] at hedge
  rw [Attempt.take_before, Attempt.take_after, Text.isWordAt_reverse hne hword] at hedge'
  have hbefore : b.before = (u ++ taken).reverse := by
    rw [hbefore, List.reverse_append]
    simp [Attempt.start, Cursor.start]
  have hafter : v = taken ++ b.after := hafter
  refine ⟨u ++ taken, w, rest, by rw [hafter, hsplit, List.append_assoc], hw, ?_, ?_⟩
  · rw [← hbefore]
    exact Bool.eq_false_iff.mpr hedge
  · exact Bool.eq_false_iff.mpr hedge'.symm

theorem pieces_of_no_match {p : Pattern} {t : Text}
    (h : ∀ u c v, t = u ++ c :: v → p.matchAt? ⟨u.reverse, c :: v⟩ = none) :
    p.pieces t = t.map .kept := by
  have hfrom : ∀ (t before : Text), (∀ u c v, t = u ++ c :: v →
      p.matchAt? ⟨u.reverse ++ before, c :: v⟩ = none) →
        p.piecesFrom [] 0 before t = t.map .kept := by
    intro t
    induction t with
    | nil => exact fun _ _ => rfl
    | cons c rest ih =>
        intro before h
        have hfirst : p.matchAt? ⟨before, c :: rest⟩ = none := h [] c rest rfl
        have hbehind := ih (c :: before) fun u d v hsplit => by
          have hnone := h (c :: u) d v (by rw [hsplit, List.cons_append])
          rwa [List.reverse_cons, List.append_assoc] at hnone
        rw [piecesFrom, hfirst]
        change p.piecesFrom [.kept c] 0 (c :: before) rest = _
        rw [piecesFrom_append, hbehind]
        rfl
  exact hfrom t [] fun u c v hsplit => by rw [List.append_nil]; exact h u c v hsplit

end Pattern
end QueryDigest
