import QueryDigest.Proofs.Statement.RenumberedTables
import QueryDigest.Proofs.Text.Repeats

/-!
Fingerprints of statements with other numbers. The words of such a statement have no numbers, and in
the names of its tables they are masked, so that its fingerprint is the same.
-/

namespace QueryDigest

open Pattern
open Text (Renumbered)

namespace Fingerprint

/-! ### Masked names -/

theorem blind_number : Blind number :=
  blind_append (blind_group (blind_optional (blind_char (by decide)))) blind_digits

theorem takes_number : Takes number := by
  refine takes_of_run fun a hdigit => ?_
  obtain ⟨d, rest, hafter, hd⟩ := Text.exists_of_isDigitAt hdigit
  have hunderscore : a.after.head? ≠ some '_' := by
    rw [hafter]
    rintro ⟨⟩
    cases hd
  have hnext : (a.close a.passed).next? Char.isDigit = some _ :=
    Attempt.next?_eq_some.mpr ⟨d, rest, hafter, hd, rfl⟩
  refine ⟨(a.close a.passed).furthest Char.isDigit, ?_, Attempt.passed_lt_furthest hnext⟩
  rw [number, run_append, run_group, Pattern.optional, run_or, run_char_none hunderscore,
    Option.none_or]
  change digits.run (a.close a.passed) some = _
  rw [digits, run_someOf_furthest, hnext, Option.bind_some]

theorem groups_of_digits {a b : Attempt} (h : digits.run a some = some b) :
    b.groups = a.groups := by
  rw [digits, run_someOf_furthest, Option.bind_eq_some_iff] at h
  obtain ⟨_, _, hb⟩ := h
  rw [← Option.some.inj hb, Attempt.furthest_eq_take, Attempt.take_groups]

/-- In front of a number nothing or an underscore is kept. -/
theorem group_number {h : Hit} (hfound : h.FoundBy number) :
    h.group 0 = [] ∨ h.group 0 = ['_'] := by
  obtain ⟨⟨before, after⟩, length, groups⟩ := h
  obtain ⟨a, hrun, hhit⟩ := matchAt?_eq_some hfound
  obtain ⟨_, _, rfl⟩ := Hit.mk.inj hhit
  rw [number, run_append, run_group, Pattern.optional, run_or, Option.or_eq_some_iff] at hrun
  obtain hrun | ⟨_, hrun⟩ := hrun
  · rw [char, run_one, Option.bind_eq_some_iff] at hrun
    obtain ⟨b, hnext, hrun⟩ := hrun
    obtain ⟨c, rest, hafter, hc, rfl⟩ := Attempt.next?_eq_some.mp hnext
    change after = c :: rest at hafter
    right
    rw [Hit.group, groups_of_digits hrun, hafter, beq_iff_eq.mp hc]
    rfl
  · left
    rw [Hit.group, groups_of_digits hrun]
    rfl

theorem maskedName_renumbered {name name' : Text} (h : Renumbered name name') :
    maskedName name = maskedName name' := by
  have hunquoted : Renumbered (Identifier.unquoted name) (Identifier.unquoted name') := by
    refine h.filter fun c hc => ?_
    rw [bne_iff_ne]
    rintro rfl
    cases hc
  refine replaceAll_eq blind_number takes_number ?_ hunquoted
  intro hit hit' hfound halike
  have hno : ∀ c ∈ hit.group 0, c.isDigit = false := by
    obtain hgroup | hgroup := group_number hfound
    · rw [hgroup]
      exact List.forall_mem_nil _
    · rw [hgroup]
      exact List.forall_mem_singleton.mpr rfl
  rw [(halike.group 0).eq_of_no_digit hno]

/-- The masked tables of a statement that names no object, without repeats. -/
theorem tables_tablesOf (q : Text) :
    tables (tablesOf q) [] = ((Extraction.ofStatement q).tables.map maskedName).eraseDups := by
  change ((tablesOf q).map maskedName ++ []).eraseDups = _
  rw [List.append_nil, tablesOf, List.eraseDups_map_eraseDups]

theorem tables_renumbered {q q' : Text} (h : Renumbered q q') :
    tables (tablesOf q) [] = tables (tablesOf q') [] := by
  rw [tables_tablesOf, tables_tablesOf]
  congr 1
  rw [← List.forall₂_eq_eq_eq, List.forall₂_map_left_iff, List.forall₂_map_right_iff]
  exact (Extraction.tables_ofStatement_renumbered h).imp
    fun name name' hname => maskedName_renumbered hname

end Fingerprint

/-- A statement that no shape claims has one and the same fingerprint, whatever its numbers are. -/
theorem fingerprint_eq_of_renumbered (q q' : Text) (h : Renumbered q q')
    (hraw : Classification.ofRaw? q = none)
    (hbare : Classification.ofBare? (Comment.erase q) = none) :
    fingerprint q' = fingerprint q := by
  rw [fingerprint, fingerprint, ← Classification.ofStatement_renumbered h hraw hbare,
    Classification.ofStatement_of_unclaimed hraw hbare]
  simp only [Fingerprint.compose, Classification.object, Fingerprint.tables_renumbered h]

/-- Numbers in names and aliases, in a literal, in comments and between back-quotes. Two names
become one. -/
theorem fingerprint_eq_of_renumbered_join :
    Renumbered "select '7' /* 1 */ from log_1 a1 join d22.t3x, `u_5`, u_66 -- 9".toList
        "select '1234' /* 56 */ from log_78 a9 join d0.t007x, `u_1`, u_5 -- 1".toList ∧
      Classification.ofRaw?
        "select '7' /* 1 */ from log_1 a1 join d22.t3x, `u_5`, u_66 -- 9".toList = none ∧
      Classification.ofBare? (Comment.erase
        "select '7' /* 1 */ from log_1 a1 join d22.t3x, `u_5`, u_66 -- 9".toList) = none ∧
      fingerprint "select '1234' /* 56 */ from log_78 a9 join d0.t007x, `u_1`, u_5 -- 1".toList =
        "SELECT log_? d?.t?x u_?".toList := by
  have hraw : Classification.ofRaw?
      "select '7' /* 1 */ from log_1 a1 join d22.t3x, `u_5`, u_66 -- 9".toList = none :=
    Option.isNone_iff_eq_none.mp (by decide +kernel)
  have hbare : Classification.ofBare? (Comment.erase
      "select '7' /* 1 */ from log_1 a1 join d22.t3x, `u_5`, u_66 -- 9".toList) = none :=
    Option.isNone_iff_eq_none.mp (by decide +kernel)
  have h : Renumbered "select '7' /* 1 */ from log_1 a1 join d22.t3x, `u_5`, u_66 -- 9".toList
      "select '1234' /* 56 */ from log_78 a9 join d0.t007x, `u_1`, u_5 -- 1".toList := by
    decide +kernel
  refine ⟨h, hraw, hbare, ?_⟩
  rw [fingerprint_eq_of_renumbered _ _ h hraw hbare]
  decide +kernel

end QueryDigest
