import Mathlib.Data.List.DropRight
import QueryDigest.Log.Line

/-!
The statement in a line, read off the line at once. White space at the end of a line and what
stands behind its first delimiter do not meet, so that cutting a line takes off only one of the two,
and the check for notes rejects nothing that would be taken for a statement.
-/

namespace QueryDigest.Log

open Unicode (isBlank isWord)

/-- What stands in front of the first delimiter of a line, or a line without one up to the white
space at its end. -/
def headOf (line : Text) : Text :=
  if ';' ∈ line then line.takeWhile (· != ';') else line.dropRightWhile isBlank

theorem takeWhile_delimiter (u v : Text) :
    (u ++ ';' :: v).takeWhile (· != ';') = u.takeWhile (· != ';') := by
  induction u with
  | nil => rfl
  | cons c u ih =>
      rw [List.cons_append, List.takeWhile_cons, List.takeWhile_cons, ih]

/-- Only white space is taken off the end of a line. -/
theorem exists_blank_end (line : Text) :
    ∃ bs, line = line.dropRightWhile isBlank ++ bs ∧ ∀ c ∈ bs, isBlank c = true :=
  ⟨line.rtakeWhile isBlank, List.rdropWhile_append_rtakeWhile.symm,
    fun _ hc => List.mem_rtakeWhile_imp hc⟩

theorem beforeDelimiter_eq (line : Text) : beforeDelimiter line = headOf line := by
  obtain ⟨bs, hline, hbs⟩ := exists_blank_end line
  have hend : ';' ∉ bs := fun hmem => absurd (hbs _ hmem) (by decide)
  by_cases hmem : ';' ∈ line
  · have htrimmed : ';' ∈ line.dropRightWhile isBlank := by
      rw [hline] at hmem
      exact (List.mem_append.mp hmem).resolve_right hend
    obtain ⟨u, v, hsplit⟩ := List.append_of_mem htrimmed
    have hwhole : line = u ++ ';' :: (v ++ bs) := by
      rw [← List.cons_append, ← List.append_assoc, ← hsplit]
      exact hline
    rw [headOf, if_pos hmem, beforeDelimiter, hsplit, takeWhile_delimiter]
    conv_rhs => rw [hwhole, takeWhile_delimiter]
  · have hnone : ∀ c ∈ line.dropRightWhile isBlank, (c != ';') = true := by
      intro c hc
      rw [bne_iff_ne]
      rintro rfl
      exact hmem (hline ▸ List.mem_append_left bs hc)
    rw [headOf, if_neg hmem, beforeDelimiter, List.takeWhile_eq_self_iff.mpr hnone]

theorem headOf_delimiter (u v : Text) : headOf (u ++ ';' :: v) = u.takeWhile (· != ';') := by
  rw [headOf, if_pos (List.mem_append_right u List.mem_cons_self), takeWhile_delimiter]

theorem not_mem_headOf (line : Text) : ';' ∉ headOf line := by
  intro hmem
  rw [← beforeDelimiter_eq, beforeDelimiter] at hmem
  have hother := List.mem_takeWhile_imp hmem
  exact absurd hother (by decide)

/-- A note is no statement, whether or not it is known for a note. -/
theorem not_startsStatement_of_note {t : Text} (h : t.head? = some '#') :
    startsStatement (t.dropWhile isBlank) = false := by
  obtain ⟨rest, rfl⟩ := List.head?_eq_some_iff.mp h
  rw [List.dropWhile_cons_of_neg (by decide)]
  exact (by decide : (isWord '#' || '#' == '(') = false)

theorem statementIn_headOf (line : Text) :
    statementIn line =
      if startsStatement ((headOf line).dropWhile isBlank) then
        some ((headOf line).dropWhile isBlank)
      else none := by
  rw [statementIn, beforeDelimiter_eq]
  by_cases hnote : (headOf line).head? = some '#'
  · rw [if_pos hnote, not_startsStatement_of_note hnote]
    rfl
  · rw [if_neg hnote]

theorem head_of_statementIn {line s : Text} (h : statementIn line = some s) :
    ';' ∉ s ∧ ∀ c, s.head? = some c → isBlank c = false := by
  rw [statementIn_headOf] at h
  obtain ⟨_, rfl⟩ := Option.ite_some_none_eq_some.mp h
  constructor
  · intro hmem
    exact not_mem_headOf line ((List.dropWhile_sublist _).subset hmem)
  · intro c hc
    have hnot := List.head?_dropWhile_not isBlank (headOf line)
    rw [hc] at hnot
    exact hnot

/-- The statement in a line is its head without the white space in front, where that starts like a
statement. It holds no delimiter and starts with no white space, what follows the first delimiter
does not count, and the check for notes rejects only what starts like no statement. -/
theorem statementIn_eq_head (line : Text) :
    (statementIn line =
      if startsStatement ((headOf line).dropWhile isBlank) then
        some ((headOf line).dropWhile isBlank)
      else none) ∧
      (∀ s, statementIn line = some s → ';' ∉ s ∧ ∀ c, s.head? = some c → isBlank c = false) ∧
      (∀ u v v', line = u ++ ';' :: v → statementIn (u ++ ';' :: v') = statementIn line) ∧
      ((beforeDelimiter line).head? = some '#' →
        startsStatement ((beforeDelimiter line).dropWhile isBlank) = false) := by
  refine ⟨statementIn_headOf line, fun s hs => head_of_statementIn hs, ?_,
    not_startsStatement_of_note⟩
  rintro u v v' rfl
  rw [statementIn_headOf, statementIn_headOf, headOf_delimiter, headOf_delimiter]

/-- Space of another width at both ends, two delimiters, and a note behind white space. -/
example :
    statementIn "\u2003(select 1 ;# 2; \n".toList = some "(select 1 ".toList ∧
      statementIn "\u2003select 1\u3000\t".toList = some "select 1".toList ∧
      statementIn " # note".toList = none := by
  decide

end QueryDigest.Log
