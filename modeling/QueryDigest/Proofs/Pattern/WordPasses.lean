import Mathlib.Data.List.Infix
import QueryDigest.Proofs.Pattern.Replacing
import QueryDigest.Proofs.Pattern.Runs

/-!
Passes over words. A word that starts like nothing that is looked for stays where it is, also behind
white space, and a pass that neither finds nor writes white space leaves words words: as many as
there were, with the same spaces in front of them.
-/

namespace QueryDigest

open Unicode (isBlank)

/-- Words: texts with something in them but no white space. -/
def Text.Words (ws : List Text) : Prop :=
  ∀ w ∈ ws, w ≠ [] ∧ ∀ c ∈ w, isBlank c = false

/-- What holds no white space is all that stands in front of the next white space. -/
theorem Text.span_nonblank {w rest : Text} (hw : ∀ c ∈ w, isBlank c = false)
    (hrest : ∀ c, rest.head? = some c → isBlank c = true) :
    (w ++ rest).takeWhile (!isBlank ·) = w ∧ (w ++ rest).dropWhile (!isBlank ·) = rest :=
  span_append (fun c hc => by simp [hw c hc]) fun c hc => by simp [hrest c hc]

/-- A text is all white space, or it has a first word. -/
theorem Text.first_word (t : Text) : (∀ c ∈ t, isBlank c = true) ∨
    ∃ bs w rest, t = bs ++ (w ++ rest) ∧ (∀ c ∈ bs, isBlank c = true) ∧ Words [w] ∧
      ∀ c, rest.head? = some c → isBlank c = true := by
  cases hdrop : t.dropWhile isBlank with
  | nil => exact Or.inl (List.dropWhile_eq_nil_iff.mp hdrop)
  | cons c rest =>
      have hc : isBlank c = false := head?_dropWhile_blank t c (by rw [hdrop]; rfl)
      refine Or.inr ⟨t.takeWhile isBlank, (c :: rest).takeWhile (!isBlank ·),
        (c :: rest).dropWhile (!isBlank ·), ?_, fun d hd => List.mem_takeWhile_imp hd, ?_, ?_⟩
      · rw [List.takeWhile_append_dropWhile, ← hdrop, List.takeWhile_append_dropWhile]
      · refine List.forall_mem_singleton.mpr ⟨?_, fun d hd => ?_⟩
        · rw [List.takeWhile_cons_of_pos (by simp [hc])]
          exact List.cons_ne_nil c _
        · simpa using List.mem_takeWhile_imp hd
      · intro d hd
        have hnot := List.head?_dropWhile_not (!isBlank ·) (c :: rest)
        rw [hd] at hnot
        simpa using hnot

namespace Pattern

open Text (Blank Words)

theorem run_nonblanks {ok : Char → Bool} (hok : ∀ c, ok c = !isBlank c) {w rest : Text}
    (hw : Words [w]) (hrest : ∀ c, rest.head? = some c → isBlank c = true) {a : Attempt}
    (hafter : a.after = w ++ rest) (onward : Onward) :
    (someOf ok).run a onward = onward (a.take w rest) := by
  obtain ⟨hne, hword⟩ := hw w List.mem_cons_self
  exact run_someOf hne (fun c hc => by simp [hok, hword c hc])
    (fun c hc => by simp [hok, hrest c hc]) hafter onward

/-! ### Words that stay -/

/-- No match of a pattern that asks for white space first starts in front of a word that does not
follow the white space in a match. -/
theorem turns_behind_blanks {p q : Pattern}
    (hp : ∀ a onward, p.run a onward = blanks.run a fun b => q.run b onward)
    {lead w : Text} (hlead : ∀ c ∈ lead, isBlank c = true) (hne : w ≠ [])
    (hw : ∀ c ∈ w, isBlank c = false) {rest : Text}
    (hq : ∀ (a : Attempt) (onward : Onward), a.after = w ++ rest → q.run a onward = none)
    (r before : Text) : Turns p r before (lead ++ w) rest (lead ++ w) := by
  have hfront : Turns p r before lead (w ++ rest) lead := by
    refine turns_of_no_match fun u c v hsplit => matchAt?_eq_none.mpr ?_
    have hbs : Blank (c :: v) := ⟨List.cons_ne_nil c v, fun d hd =>
      hlead d (hsplit ▸ List.mem_append_right u hd)⟩
    rw [hp, run_blanks hbs (Text.head_nonblank hw hne rest) rfl, hq _ _ rfl]
  have hword : Turns p r (lead.reverse ++ before) w rest w := by
    refine turns_of_chars (P := fun c => isBlank c = false) (fun hc => ?_) hw
    refine matchAt?_eq_none.mpr ?_
    rw [hp]
    refine run_blanks_none ?_ _
    rintro _ ⟨⟩
    exact hc
  exact hfront.append hword

/-- No match starts in front of a word that no text to be found starts like. -/
theorem run_anyOf_none {ks : List Text} {w rest : Text}
    (h : ∀ k ∈ ks, ¬ k <+: w ∧ ¬ w <+: k) {a : Attempt} (hafter : a.after = w ++ rest)
    (onward : Onward) : (anyOf (ks.map exactly)).run a onward = none := by
  refine Option.eq_none_iff_forall_ne_some.mpr fun b hrun => ?_
  obtain ⟨_, hp, hrun⟩ := run_anyOf_eq_some hrun
  obtain ⟨k, hk, rfl⟩ := List.mem_map.mp hp
  have hstart := run_exactly_eq_some hrun
  rw [hafter] at hstart
  obtain hkw | hwk := List.prefix_or_prefix_of_prefix hstart (List.prefix_append w rest)
  · exact (h k hk).1 hkw
  · exact (h k hk).2 hwk

theorem turns_exactly {k u : Text} (h : ∀ s ∈ u.tails, s ≠ [] → ¬ k <+: s ∧ ¬ s <+: k)
    (r before rest : Text) : Turns (exactly k) r before u rest u := by
  refine turns_of_no_match fun x c v hsplit => matchAt?_eq_none.mpr ?_
  refine Option.eq_none_iff_forall_ne_some.mpr fun b hrun => ?_
  obtain ⟨hk, hs⟩ := h (c :: v) ((List.mem_tails _ _).mpr ⟨x, hsplit.symm⟩) (List.cons_ne_nil c v)
  have hstart : k <+: (c :: v) ++ rest := run_exactly_eq_some hrun
  exact (List.prefix_or_prefix_of_prefix hstart (List.prefix_append (c :: v) rest)).elim hk hs

/-- What is written for a text starts with a character of the same kind, if all that is written for
matches does. -/
theorem write_head {P : Char → Prop} {p : Pattern} {r : Text} (hne : r ≠ []) (hr : ∀ c ∈ r, P c)
    {c : Char} (hc : P c) (before rest : Text) :
    ∃ d more, write (fun _ => r) (p.outlineFrom 0 before (c :: rest)) = d :: more ∧ P d := by
  obtain hkept | ⟨h, d, text, hmatch, htext⟩ := kept_or_hit p ⟨before, c :: rest⟩
  · rw [outlineFrom_kept hkept, write_kept]
    exact ⟨c, _, rfl, hc⟩
  · obtain ⟨d, r, rfl⟩ := List.exists_cons_of_ne_nil hne
    rw [outlineFrom_hit hmatch htext, write_found]
    exact ⟨d, _, rfl, hr d List.mem_cons_self⟩

/-! ### Replacements in words -/

section

variable {p : Pattern} (hnear : p.Near) (havoid : p.avoids [' '] = true) {r : Text} (hne : r ≠ [])
  (hr : ∀ c ∈ r, isBlank c = false)

include hnear havoid hne hr

omit hne hr in
theorem outlineFrom_space (before v : Text) :
    p.outlineFrom 0 before (' ' :: v) = .inl ' ' :: p.outlineFrom 0 [' '] v := by
  have hkept : ∀ h, p.matchAt? ⟨before, ' ' :: v⟩ = some h → h.text = [] := fun h hmatch =>
    List.prefix_nil.mp (hit_within hnear havoid List.mem_cons_self (u := []) hmatch)
  rw [outlineFrom_kept hkept, outlineFrom_before hnear 0 (' ' :: before) [' '] rfl]

/-- A word stays one, as long as no match reaches the space behind it. -/
theorem turns_one_word {w : Text} (hw : w ≠ []) (hword : ∀ c ∈ w, isBlank c = false)
    {rest : Text} (hrest : rest = [] ∨ ∃ v, rest = ' ' :: v) (before : Text) :
    ∃ w', Turns p r before w rest w' ∧ w' ≠ [] ∧ ∀ c ∈ w', isBlank c = false := by
  obtain ⟨c, u, rfl⟩ := List.exists_cons_of_ne_nil hw
  have hfirst : ∀ t, ∃ d more,
      write (fun _ => r) (p.outlineFrom 0 before (c :: t)) = d :: more ∧ isBlank d = false :=
    write_head hne hr (hword c List.mem_cons_self) before
  obtain rfl | ⟨v, rfl⟩ := hrest
  · refine ⟨write (fun _ => r) (p.outlineFrom 0 before (c :: u)), ?_, ?_, ?_⟩
    · simp [Turns]
    · obtain ⟨d, more, hwrite, _⟩ := hfirst u
      rw [hwrite]
      exact List.cons_ne_nil d more
    · intro d hd
      obtain hd | hd := mem_write_const hd
      · rw [write_outlineFrom] at hd
        exact hword d hd
      · exact hr d hd
  · obtain ⟨w', hmem, hwrite⟩ :=
      write_stop hnear [' '] havoid List.mem_cons_self r before (c :: u)
    refine ⟨w', ?_, ?_, fun d hd => (hmem d hd).elim (hword d) (hr d)⟩
    · rw [Turns, hwrite, outlineFrom_space hnear havoid, write_kept]
    · rintro rfl
      obtain ⟨d, more, hhead, hd⟩ := hfirst (u ++ ' ' :: v)
      rw [← List.cons_append, hwrite] at hhead
      cases hhead
      cases hd

theorem turns_words {ws : List Text} (hws : Words ws) (before : Text) :
    ∃ ws', ws'.length = ws.length ∧ Words ws' ∧
      Turns p r before (ws.flatMap (' ' :: ·)) [] (ws'.flatMap (' ' :: ·)) := by
  induction ws generalizing before with
  | nil => exact ⟨[], rfl, List.forall_mem_nil _, turns_nil p r before []⟩
  | cons w ws ih =>
      obtain ⟨⟨hw, hword⟩, hws⟩ := List.forall_mem_cons.mp hws
      have hrest : ws.flatMap (' ' :: ·) ++ [] = [] ∨
          ∃ v, ws.flatMap (' ' :: ·) ++ [] = ' ' :: v := by
        cases ws with
        | nil => exact Or.inl rfl
        | cons w' ws => exact Or.inr ⟨_, rfl⟩
      have hspace : Turns p r before [' '] (w ++ ws.flatMap (' ' :: ·) ++ []) [' '] := by
        rw [Turns, List.singleton_append, outlineFrom_space hnear havoid, write_kept,
          outlineFrom_before hnear 0 [' '] ([' '].reverse ++ before) rfl]
        rfl
      obtain ⟨w', hturns, hw'⟩ :=
        turns_one_word hnear havoid hne hr hw hword hrest (' ' :: before)
      obtain ⟨ws', hlength, hws', hbehind⟩ := ih hws (w.reverse ++ ' ' :: before)
      refine ⟨w' :: ws', congrArg (· + 1) hlength, List.forall_mem_cons.mpr ⟨hw', hws'⟩, ?_⟩
      exact hspace.append (hturns.append hbehind)

end

/-! ### White space as single spaces -/

theorem turns_blank_run {bs rest : Text} (hbs : Blank bs)
    (hrest : ∀ c, rest.head? = some c → isBlank c = false) (before : Text) :
    Turns blanks [' '] before bs rest [' '] := by
  have hmatch : blanks.matchAt? ⟨before, bs ++ rest⟩ =
      some ⟨⟨before, bs ++ rest⟩, bs.length, []⟩ := by
    rw [matchAt?, run_blanks hbs hrest rfl]
    simp
  exact turns_hit hmatch rfl hbs.nonempty

theorem turns_nonblank {w : Text} (hw : ∀ c ∈ w, isBlank c = false) (r before rest : Text) :
    Turns blanks r before w rest w := by
  refine turns_of_chars (P := fun c => isBlank c = false) (fun hc => ?_) hw
  refine matchAt?_eq_none.mpr (run_blanks_none ?_ _)
  rintro _ ⟨⟩
  exact hc

end Pattern
end QueryDigest
