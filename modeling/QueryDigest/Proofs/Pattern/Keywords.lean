import QueryDigest.Proofs.Pattern.Locality

/-!
Patterns that start with a keyword. A keyword takes one run of characters, letter by letter the same
as its own up to case, so that what such a pattern matches can be read off the text.
-/

namespace QueryDigest.Pattern

open Unicode (foldLetter isBlank)

theorem run_append (p q : Pattern) (a : Attempt) (onward : Onward) :
    (p ++ q).run a onward = p.run a fun b => q.run b onward :=
  rfl

theorem run_or (p q : Pattern) (a : Attempt) (onward : Onward) :
    (p ||| q).run a onward = (p.run a onward).or (q.run a onward) :=
  run_alt p q a onward

theorem run_group (p : Pattern) (a : Attempt) (onward : Onward) :
    (Pattern.group p).run a onward = p.run a fun b => onward (b.close a.passed) :=
  rfl

theorem run_wordEdge_some {a b : Attempt} {onward : Onward} :
    wordEdge.run a onward = some b ↔
      isWordAt a.before.head? ≠ isWordAt a.after.head? ∧ onward a = some b := by
  rw [wordEdge, run, Option.ite_none_right_eq_some, bne_iff_ne]

theorem run_wordEdge {a : Attempt} (h : isWordAt a.before.head? ≠ isWordAt a.after.head?)
    (onward : Onward) : wordEdge.run a onward = onward a := by
  rw [wordEdge, run, if_pos (bne_iff_ne.mpr h)]

/-- The attempt that has taken a text. -/
def Attempt.take (taken rest : Text) (a : Attempt) : Attempt :=
  ⟨taken.reverse ++ a.before, rest, a.passed + taken.length, a.groups⟩

@[simp] theorem Attempt.take_before (taken rest : Text) (a : Attempt) :
    (a.take taken rest).before = taken.reverse ++ a.before :=
  rfl

@[simp] theorem Attempt.take_after (taken rest : Text) (a : Attempt) :
    (a.take taken rest).after = rest :=
  rfl

@[simp] theorem Attempt.take_passed (taken rest : Text) (a : Attempt) :
    (a.take taken rest).passed = a.passed + taken.length :=
  rfl

@[simp] theorem Attempt.take_groups (taken rest : Text) (a : Attempt) :
    (a.take taken rest).groups = a.groups :=
  rfl

@[simp] theorem Attempt.take_nil (a : Attempt) : a.take [] a.after = a := by
  simp [Attempt.take]

theorem Attempt.take_take (u v rest rest' : Text) (a : Attempt) :
    (a.take u rest').take v rest = a.take (u ++ v) rest := by
  simp [Attempt.take, Nat.add_assoc]

theorem Attempt.take_cons (c : Char) (taken rest : Text) (a : Attempt) :
    Attempt.take taken rest ⟨c :: a.before, taken ++ rest, a.passed + 1, a.groups⟩ =
      a.take (c :: taken) rest := by
  simp [Attempt.take, Nat.add_comm, Nat.add_left_comm]

/-! ### Keywords -/

theorem run_keyword {w t : Text} (h : w.map foldLetter = t.map foldLetter) {a : Attempt}
    {rest : Text} (hafter : a.after = w ++ rest) (onward : Onward) :
    (keyword t).run a onward = onward (a.take w rest) := by
  induction t generalizing w a with
  | nil =>
      obtain rfl : w = [] := List.map_eq_nil_iff.mp h
      obtain rfl : a.after = rest := hafter
      rw [Attempt.take_nil]
      rfl
  | cons c t ih =>
      cases w with
      | nil => cases h
      | cons d w =>
          obtain ⟨hd, hw⟩ := List.cons.inj h
          have hnext : a.next? (fun d => foldLetter d == foldLetter c) =
              some ⟨d :: a.before, w ++ rest, a.passed + 1, a.groups⟩ :=
            Attempt.next?_eq_some.mpr ⟨d, w ++ rest, hafter, beq_iff_eq.mpr hd, rfl⟩
          change (Pattern.one _ ++ keyword t).run a onward = _
          rw [run_append, run_one, hnext, Option.bind_some, ih hw rfl]
          rw [← Attempt.take_cons]

theorem run_keyword_eq_some {t : Text} {a b : Attempt} {onward : Onward}
    (h : (keyword t).run a onward = some b) :
    ∃ w rest, a.after = w ++ rest ∧ w.map foldLetter = t.map foldLetter ∧
      onward (a.take w rest) = some b := by
  induction t generalizing a with
  | nil => exact ⟨[], a.after, rfl, rfl, by rwa [Attempt.take_nil]⟩
  | cons c t ih =>
      change (Pattern.one _ ++ keyword t).run a onward = _ at h
      rw [run_append, run_one, Option.bind_eq_some_iff] at h
      obtain ⟨b', hnext, hb⟩ := h
      obtain ⟨d, rest', hafter, hd, rfl⟩ := Attempt.next?_eq_some.mp hnext
      obtain ⟨w, rest, hrest, hw, honward⟩ := ih hb
      obtain rfl : rest' = w ++ rest := hrest
      refine ⟨d :: w, rest, hafter, ?_, ?_⟩
      · rw [List.map_cons, List.map_cons, hw, beq_iff_eq.mp hd]
      · rwa [← Attempt.take_cons]

theorem run_exactly_eq_some {t : Text} {a b : Attempt} {onward : Onward}
    (h : (exactly t).run a onward = some b) : t <+: a.after := by
  induction t generalizing a with
  | nil => exact List.nil_prefix
  | cons c t ih =>
      change (char c ++ exactly t).run a onward = _ at h
      rw [run_append, char, run_one, Option.bind_eq_some_iff] at h
      obtain ⟨b', hnext, hb⟩ := h
      obtain ⟨d, rest, hafter, hd, rfl⟩ := Attempt.next?_eq_some.mp hnext
      rw [hafter, ← beq_iff_eq.mp hd]
      exact List.cons_prefix_cons.mpr ⟨rfl, ih hb⟩

theorem run_anyOf_eq_some {ps : List Pattern} {a b : Attempt} {onward : Onward}
    (h : (anyOf ps).run a onward = some b) : ∃ p ∈ ps, p.run a onward = some b := by
  induction ps with
  | nil => cases h
  | cons p ps ih =>
      cases ps with
      | nil => exact ⟨p, List.mem_cons_self, h⟩
      | cons q ps =>
          change (p ||| anyOf (q :: ps)).run a onward = some b at h
          rw [run_or, Option.or_eq_some_iff] at h
          obtain hp | ⟨_, hq⟩ := h
          · exact ⟨p, List.mem_cons_self, hp⟩
          · obtain ⟨r, hr, hrun⟩ := ih hq
            exact ⟨r, List.mem_cons_of_mem p hr, hrun⟩

theorem run_anyOf_ne_none {ps : List Pattern} {p : Pattern} (hp : p ∈ ps) {a : Attempt}
    {onward : Onward} (h : p.run a onward ≠ none) : (anyOf ps).run a onward ≠ none := by
  induction ps with
  | nil => cases hp
  | cons q ps ih =>
      cases ps with
      | nil =>
          obtain rfl := List.mem_singleton.mp hp
          exact h
      | cons q' ps =>
          change (q ||| anyOf (q' :: ps)).run a onward ≠ none
          rw [run_or, Ne, Option.or_eq_none_iff]
          rintro ⟨hq, hrest⟩
          obtain rfl | hp := List.mem_cons.mp hp
          · exact h hq
          · exact ih hp hrest

theorem run_keywords_eq_some {ts : List Text} {a b : Attempt} {onward : Onward}
    (h : (keywords ts).run a onward = some b) :
    ∃ t ∈ ts, ∃ w rest, a.after = w ++ rest ∧ w.map foldLetter = t.map foldLetter ∧
      onward (a.take w rest) = some b := by
  obtain ⟨p, hp, hrun⟩ := run_anyOf_eq_some h
  obtain ⟨t, ht, rfl⟩ := List.mem_map.mp hp
  exact ⟨t, ht, run_keyword_eq_some hrun⟩

theorem run_keywords_ne_none {ts : List Text} {t w rest : Text} (ht : t ∈ ts)
    (hw : w.map foldLetter = t.map foldLetter) {a : Attempt} (hafter : a.after = w ++ rest)
    {onward : Onward} (h : onward (a.take w rest) ≠ none) :
    (keywords ts).run a onward ≠ none := by
  apply run_anyOf_ne_none (List.mem_map_of_mem ht)
  rwa [run_keyword hw hafter]

/-- Of two texts at the start of one text, one reads like the start of the other. -/
theorem fold_starts {t w rest w' rest' : Text} (h : t = w ++ rest) (h' : t = w' ++ rest') :
    w.map foldLetter <+: w'.map foldLetter ∨ w'.map foldLetter <+: w.map foldLetter := by
  obtain hstart | hstart := List.prefix_or_prefix_of_prefix ⟨rest, h.symm⟩ ⟨rest', h'.symm⟩
  · exact Or.inl (hstart.map foldLetter)
  · exact Or.inr (hstart.map foldLetter)

/-! ### The start of a statement -/

theorem Attempt.furthest_eq_take (ok : Char → Bool) (a : Attempt) :
    a.furthest ok = a.take (a.after.takeWhile ok) (a.after.dropWhile ok) := by
  obtain ⟨before, after, passed, groups⟩ := a
  induction after generalizing before passed with
  | nil => rfl
  | cons c rest ih =>
      cases hc : ok c with
      | false =>
          rw [Attempt.furthest_of_none (Attempt.next?_eq_none.mpr (by simpa using hc)),
            List.takeWhile_cons_of_neg (by simp [hc]), List.dropWhile_cons_of_neg (by simp [hc])]
          exact (Attempt.take_nil _).symm
      | true =>
          rw [Attempt.furthest_of_some (Attempt.next?_eq_some.mpr ⟨c, rest, rfl, hc, rfl⟩), ih,
            List.takeWhile_cons_of_pos hc, List.dropWhile_cons_of_pos hc]
          simp [Attempt.take, Nat.add_comm, Nat.add_left_comm]

theorem Attempt.passed_lt_furthest {ok : Char → Bool} {a b : Attempt} (h : a.next? ok = some b) :
    a.passed < (a.furthest ok).passed := by
  obtain ⟨c, rest, _, _, rfl⟩ := Attempt.next?_eq_some.mp h
  rw [Attempt.furthest_of_some h, Attempt.furthest_eq_take, Attempt.take_passed]
  exact Nat.lt_of_lt_of_le (Nat.lt_succ_self _) (Nat.le_add_right _ _)

/-- The attempt behind the white space at the start of a text. -/
def Attempt.leading (t : Text) : Attempt :=
  ⟨(t.takeWhile isBlank).reverse, t.dropWhile isBlank, (t.takeWhile isBlank).length, []⟩

theorem run_leading (t : Text) (onward : Onward) :
    (textStart ++ maybeBlanks).run (.start (.start t)) onward = onward (.leading t) := by
  change onward ((Attempt.start (.start t)).furthest isBlank) = _
  rw [Attempt.furthest_eq_take]
  simp [Attempt.take, Attempt.leading, Attempt.start, Cursor.start]

end QueryDigest.Pattern
