import Mathlib.Data.List.Basic
import QueryDigest.Proofs.Pattern.RenumberedSearch
import QueryDigest.Proofs.Pattern.Runs
import QueryDigest.Proofs.Statement.TableClauses

/-!
Table clauses by one pattern. The search drops an UPDATE that names columns after it has been found
and goes on one character behind its start. That comes to the matches of the pattern in which UPDATE
itself asks what stands in front of it, since no clause starts in the middle of a word.
-/

namespace QueryDigest.TableClause

open Pattern
open Unicode (foldLetter isBlank)

/-- KEY in any ASCII case and one character of white space stand right in front of a place. -/
def BehindKey (before : Text) : Prop :=
  ∃ u key blank, before.reverse = u ++ (key ++ [blank]) ∧ key.map Char.toUpper = "KEY".toList ∧
    isBlank blank = true

theorem followsKey_iff {before : Text} : followsKey before = true ↔ BehindKey before := by
  constructor
  · intro h
    match before with
    | blank :: y :: e :: k :: rest =>
        obtain ⟨hblank, hkey⟩ := Bool.and_eq_true_iff.mp h
        exact ⟨rest.reverse, [k, e, y], blank, by simp, beq_iff_eq.mp hkey, hblank⟩
    | [] | [_] | [_, _] | [_, _, _] => cases h
  · rintro ⟨u, key, blank, hbefore, hkey, hblank⟩
    obtain ⟨k, e, y, rfl⟩ := List.length_eq_three.mp
      ((List.length_map Char.toUpper).symm.trans (congrArg List.length hkey))
    rw [← List.reverse_reverse before, hbefore]
    have hlast : (u ++ ([k, e, y] ++ [blank])).reverse = blank :: y :: e :: k :: u.reverse := by
      simp
    rw [hlast]
    exact Bool.and_eq_true_iff.mpr ⟨hblank, beq_iff_eq.mpr hkey⟩

instance : DecidablePred BehindKey :=
  fun _ => decidable_of_iff _ followsKey_iff

/-- A word that opens a clause, with the condition on what stands in front of UPDATE. -/
def guardedAnchor : Pattern :=
  anyOf [keyword "FROM".toList, keyword "JOIN".toList,
    .holds (fun before _ => !decide (BehindKey before)) ++ keyword "UPDATE".toList,
    keyword "INTO".toList]

/-- The pattern of a clause in which UPDATE does not stand behind KEY. -/
def guarded : Pattern :=
  wordEdge ++ .group guardedAnchor ++ wordEdge ++ maybeBlanks ++ optional (char '(')
    ++ .group nameList

theorem run_guarded (a : Attempt) (onward : Onward) :
    guarded.run a onward = wordEdge.run a fun b => guardedAnchor.run b fun c =>
      behindAnchor.run (c.close b.passed) onward :=
  rfl

/-! ### Anchors behind KEY -/

section

variable {b : Attempt} {onward : Onward}

theorem run_guardedAnchor (h : ¬ BehindKey b.before) :
    guardedAnchor.run b onward = (keywords anchors).run b onward := by
  have hupdate : (Pattern.holds (fun before _ => !decide (BehindKey before)) ++
      keyword "UPDATE".toList).run b onward = (keyword "UPDATE".toList).run b onward := by
    rw [run_append, run, if_pos (by simpa using h)]
  change (keyword _ ||| (keyword _ ||| (_ ||| keyword _))).run b onward =
    (keyword _ ||| (keyword _ ||| (keyword _ ||| keyword _))).run b onward
  simp only [run_or, hupdate]

theorem run_guardedAnchor_key (h : BehindKey b.before) : guardedAnchor.run b onward =
    (keywords ["FROM".toList, "JOIN".toList, "INTO".toList]).run b onward := by
  have hupdate : (Pattern.holds (fun before _ => !decide (BehindKey before)) ++
      keyword "UPDATE".toList).run b onward = none := by
    rw [run_append, run, if_neg (by simpa using h)]
  change (keyword _ ||| (keyword _ ||| (_ ||| keyword _))).run b onward =
    (keyword _ ||| (keyword _ ||| keyword _)).run b onward
  simp only [run_or, hupdate, Option.none_or]

/-- A text that does not start with UPDATE starts with one of the anchors if it does with one of the
other three. -/
theorem run_otherAnchor (h : ∀ w rest, b.after = w ++ rest →
    w.map foldLetter ≠ "UPDATE".toList.map foldLetter) :
    (keywords anchors).run b onward =
      (keywords ["FROM".toList, "JOIN".toList, "INTO".toList]).run b onward := by
  have hupdate : (keyword "UPDATE".toList).run b onward = none := by
    refine Option.eq_none_iff_forall_ne_some.mpr fun c hrun => ?_
    obtain ⟨w, rest, hafter, hw, _⟩ := run_keyword_eq_some hrun
    exact h w rest hafter hw
  change (keyword _ ||| (keyword _ ||| (keyword _ ||| keyword _))).run b onward =
    (keyword _ ||| (keyword _ ||| keyword _)).run b onward
  simp only [run_or, hupdate, Option.none_or]

end

/-- Of two anchors at one place one does not read like the start of the other. -/
theorem anchor_unique {k k' : Text} (hk : k ∈ anchors) (hk' : k' ∈ anchors)
    {t w w' rest rest' : Text} (h : t = w ++ rest) (h' : t = w' ++ rest')
    (hw : w.map foldLetter = k.map foldLetter) (hw' : w'.map foldLetter = k'.map foldLetter) :
    k = k' := by
  have hapart : ∀ k ∈ anchors, ∀ k' ∈ anchors, k.map foldLetter <+: k'.map foldLetter ∨
      k'.map foldLetter <+: k.map foldLetter → k = k' := by
    decide
  have hstart := fold_starts h h'
  rw [hw, hw'] at hstart
  exact hapart k hk k' hk' hstart

/-- The first group of a clause is the anchor that it starts with. -/
theorem group_anchor {before after : Text} {h : Hit}
    (hmatch : pattern.matchAt? ⟨before, after⟩ = some h) :
    ∃ k ∈ anchors, ∃ rest, after = h.group 0 ++ rest ∧
      (h.group 0).map foldLetter = k.map foldLetter := by
  obtain ⟨b, hrun, rfl⟩ := matchAt?_eq_some hmatch
  rw [run_pattern] at hrun
  obtain ⟨_, hrun⟩ := run_wordEdge_some.mp hrun
  obtain ⟨k, hk, w, rest, hafter, hw, hrun⟩ := run_keywords_eq_some hrun
  have hkeeps : Invariant fun a => [(0, w.length)] <+: a.groups := {
    next := by
      intro ok a a' hnext ha
      obtain ⟨_, _, _, _, rfl⟩ := Attempt.next?_eq_some.mp hnext
      exact ha
    close := fun _ ha => ha.trans (List.prefix_append _ _) }
  have hgroups : [(0, w.length)] <+: b.groups :=
    hkeeps.run hrun (by simp [Attempt.close, Attempt.start])
  obtain ⟨more, hmore⟩ := hgroups
  have hafter : after = w ++ rest := hafter
  have hgroup : Hit.group ⟨⟨before, after⟩, b.passed, b.groups⟩ 0 = w := by
    simp [Hit.group, ← hmore, hafter]
  rw [hgroup]
  exact ⟨k, hk, rest, hafter, hw⟩

theorem updatesColumns_iff {h : Hit} : updatesColumns h = true ↔
    (h.group 0).map foldLetter = "UPDATE".toList.map foldLetter ∧ BehindKey h.start.before := by
  rw [updatesColumns, Bool.and_eq_true, followsKey_iff, Unicode.sameLetters, beq_iff_eq]

/-- Where a clause is found, the pattern with the condition finds the same one, unless it is an
UPDATE that names columns. -/
theorem matchAt?_guarded (before after : Text) :
    guarded.matchAt? ⟨before, after⟩ =
      (pattern.matchAt? ⟨before, after⟩).filter (!updatesColumns ·) := by
  by_cases hcolumns : BehindKey before ∧ ∃ w rest, after = w ++ rest ∧
      w.map foldLetter = "UPDATE".toList.map foldLetter
  · obtain ⟨hkey, w, rest, hafter, hw⟩ := hcolumns
    have hupdate : "UPDATE".toList ∈ anchors := by decide
    have hguarded : guarded.matchAt? ⟨before, after⟩ = none := by
      refine matchAt?_eq_none.mpr (Option.eq_none_iff_forall_ne_some.mpr fun b hrun => ?_)
      rw [run_guarded] at hrun
      obtain ⟨_, hrun⟩ := run_wordEdge_some.mp hrun
      rw [run_guardedAnchor_key hkey] at hrun
      obtain ⟨k, hk, w', rest', hafter', hw', _⟩ := run_keywords_eq_some hrun
      have hothers : ∀ k ∈ ["FROM".toList, "JOIN".toList, "INTO".toList],
          k ∈ anchors ∧ k ≠ "UPDATE".toList := by
        decide
      obtain ⟨hanchor, hne⟩ := hothers k hk
      exact hne (anchor_unique hanchor hupdate hafter' hafter hw' hw)
    rw [hguarded, eq_comm, Option.filter_eq_none_iff]
    intro h hmatch
    obtain ⟨k, hk, rest', hafter', hanchor⟩ := group_anchor hmatch
    obtain rfl := anchor_unique hk hupdate hafter' hafter hanchor hw
    have hcolumns : updatesColumns h = true :=
      updatesColumns_iff.mpr ⟨hanchor, by rwa [(matchAt?_text hmatch).1]⟩
    simp [hcolumns]
  · have hsame : guarded.matchAt? ⟨before, after⟩ = pattern.matchAt? ⟨before, after⟩ := by
      have hruns : ∀ onward, guardedAnchor.run (.start ⟨before, after⟩) onward =
          (keywords anchors).run (.start ⟨before, after⟩) onward := by
        intro onward
        by_cases hkey : BehindKey before
        · rw [run_guardedAnchor_key hkey, run_otherAnchor]
          exact fun w rest hafter hw => hcolumns ⟨hkey, w, rest, hafter, hw⟩
        · exact run_guardedAnchor hkey
      rw [matchAt?, matchAt?]
      congr 1
      rw [run_pattern, run_guarded, wordEdge, run, run]
      simp only [Attempt.start] at hruns
      simp only [hruns]
    rw [hsame]
    cases hmatch : pattern.matchAt? ⟨before, after⟩ with
    | none => rfl
    | some h =>
        obtain ⟨_, _, rest, hafter, _⟩ := group_anchor hmatch
        have hnames : updatesColumns h = false := by
          rw [Bool.eq_false_iff, ne_eq, updatesColumns_iff, (matchAt?_text hmatch).1]
          rintro ⟨hupdate, hkey⟩
          exact hcolumns ⟨hkey, _, rest, hafter, hupdate⟩
        rw [Option.filter_some_pos (by simp [hnames])]

/-! ### The matches from a place on -/

/-- The matches of the pattern with the condition from a place on, from left to right. -/
theorem listsBehind_eq_hits (before after : Text) :
    listsBehind before after =
      ((guarded.piecesFrom [] 0 before after).filterMap Piece.hit?).map (·.group 1) := by
  induction hlength : after.length using Nat.strong_induction_on generalizing before after with
  | _ n ih =>
      cases after with
      | nil => exact listsBehind_nil before
      | cons c rest =>
          have hguarded := matchAt?_guarded before (c :: rest)
          have hskip : guarded.matchAt? ⟨before, c :: rest⟩ = none →
              listsBehind (c :: before) rest =
                ((guarded.piecesFrom [] 0 before (c :: rest)).filterMap Piece.hit?).map
                  (·.group 1) := by
            intro hnone
            have hkept : ∀ h, guarded.matchAt? ⟨before, c :: rest⟩ = some h → h.length = 0 := by
              intro h hmatch
              rw [hnone] at hmatch
              cases hmatch
            rw [piecesFrom_kept hkept]
            exact ih rest.length (hlength ▸ Nat.lt_succ_self _) (c :: before) rest rfl
          cases hmatch : pattern.matchAt? ⟨before, c :: rest⟩ with
          | none =>
              rw [hmatch] at hguarded
              rw [listsBehind_skip hmatch]
              exact hskip hguarded
          | some h =>
              rw [hmatch] at hguarded
              have hfind : pattern.findFrom ⟨before, c :: rest⟩ = some h := findBetween_hit hmatch
              cases hcolumns : updatesColumns h with
              | true =>
                  have hstart := (matchAt?_text hmatch).1
                  refine (listsBehind_of_columns hfind hcolumns).trans ?_
                  rw [hstart]
                  exact hskip (hguarded.trans (Option.filter_some_neg (by simp [hcolumns])))
              | false =>
                  have hhit : guarded.matchAt? ⟨before, c :: rest⟩ = some h :=
                    hguarded.trans (Option.filter_some_pos (by simp [hcolumns]))
                  have hmoves := clause_moves hmatch
                  have hshort : h.stop.after.length < n := hlength ▸ length_skip hfind hmoves
                  refine (listsBehind_of_names hfind hcolumns).trans ?_
                  rw [piecesFrom_hit hhit hmoves.ne', ih _ hshort _ _ rfl]
                  rfl

theorem lists_eq_hits (t : Text) : lists t = (guarded.hits t).map (·.group 1) :=
  listsBehind_eq_hits [] t

end QueryDigest.TableClause
