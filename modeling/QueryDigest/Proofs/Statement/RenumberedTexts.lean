import QueryDigest.Proofs.Pattern.RenumberedSearch
import QueryDigest.Proofs.Statement.Verbs

/-!
Statements with other numbers: their comments, and the shapes that claim them. Erasing the comments
of renumbered texts leaves renumbered texts, and the same shapes fit them.
-/

namespace QueryDigest

open Text (Digits Renumbered)
open Unicode (foldLetter)

/-- A text that reads as a keyword has no numbers to change. -/
theorem Text.Renumbered.eq_of_reads {w w' : Text} (h : Renumbered w w')
    (hreads : (w.map foldLetter).all Char.isUpper = true) : w = w' := by
  refine h.eq_of_no_digit fun c hc => ?_
  exact Unicode.isDigit_of_isUpper_foldLetter
    (List.all_eq_true.mp hreads _ (List.mem_map_of_mem hc))

/-! ### Comments -/

namespace Comment

open Pattern

theorem steady_block : Steady block :=
  (steady_exactly (by decide) (by decide)).across_one (by decide) (by decide) rfl
    (steady_exactly (by decide) (by decide))

theorem steady_line : Steady line :=
  ((steady_exactly (by decide) (by decide)).or (steady_exactly (by decide) (by decide))).append
    (blind_allOf (by decide)) |>.append blind_lineEnd

theorem steady_version : Steady version :=
  ((steady_exactly (by decide) (by decide)).append (blind_allOf (by decide))
    |>.append blind_digits).across (blindTo_asFew (by decide))
      (steady_exactly (by decide) (by decide))

theorem steady_showQualifier : Steady showQualifier :=
  ((steady_textStart.append (blind_keyword (by decide))).across (blindTo_asFew (by decide))
    (steady_exactly (by decide) (by decide)) |>.append blind_digits).across
      (blindTo_group (blindTo_asFew (by decide))) (steady_exactly (by decide) (by decide))

theorem closes_digits {ds : Text} (hds : ∀ c ∈ ds, c.isDigit = true) (t : Text) :
    closes (ds ++ t) = closes t := by
  induction ds with
  | nil => rfl
  | cons d ds ih =>
      obtain ⟨hd, hds⟩ := List.forall_mem_cons.mp hds
      have hne : (d == '*') = false := by
        rw [beq_eq_false_iff_ne]
        rintro rfl
        cases hd
      rw [List.cons_append, closes, hne, Bool.false_and, Bool.false_or, ih hds]

theorem closes_renumbered {t t' : Text} (h : Renumbered t t') : closes t = closes t' := by
  induction h with
  | nil => rfl
  | @other c t t' hc h ih =>
      have hslash : (t.head? == some '/') = (t'.head? == some '/') := by
        rw [Bool.eq_iff_iff, beq_iff_eq, beq_iff_eq]
        exact h.head.eq_some_iff rfl
      rw [closes, closes, hslash, ih]
  | run hds hds' hend h ih =>
      rw [closes_digits hds.digit, closes_digits hds'.digit, ih]

/-- The quote around a place, where there is one, is no digit. -/
def Surroundings.Digitless : Surroundings → Prop
  | .quoted quote | .escaped quote => quote.isDigit = false
  | _ => True

def Surroundings.afterDigits : Surroundings → Surroundings
  | .escaped quote => .quoted quote
  | .opener => .comment
  | .closer => .plain
  | around => around

theorem Surroundings.Digitless.afterDigits {around : Surroundings} (h : around.Digitless) :
    around.afterDigits.Digitless := by
  cases around with
  | quoted quote | escaped quote => exact h
  | plain | opener | comment | closer => trivial

theorem unclosedFrom_digit {d : Char} (hd : d.isDigit = true) {around : Surroundings}
    (h : around.Digitless) (n : Nat) (t : Text) :
    unclosedFrom around n (d :: t) = unclosedFrom around.afterDigits (n + 1) t := by
  have hne : ∀ {c : Char}, c.isDigit = false → d ≠ c := by
    rintro c hc rfl
    exact Bool.false_ne_true (hc.symm.trans hd)
  cases around with
  | plain =>
      have hquote : isQuote d = false := by
        simp [isQuote, hne (c := '\'') rfl, hne (c := '"') rfl, hne (c := '\x60') rfl]
      rw [unclosedFrom, hquote, if_neg Bool.false_ne_true, if_neg fun h => hne rfl h.1]
      rfl
  | quoted quote =>
      rw [unclosedFrom, if_neg (hne rfl), if_neg (hne h)]
      rfl
  | comment =>
      rw [unclosedFrom, if_neg fun h => hne rfl h.1]
      rfl
  | escaped quote | opener | closer => rfl

theorem unclosedFrom_digits {ds : Text} (hds : Digits ds) {around : Surroundings}
    (h : around.Digitless) (n : Nat) (t : Text) :
    unclosedFrom around n (ds ++ t) = unclosedFrom around.afterDigits (n + ds.length) t := by
  obtain ⟨hne, hdigit⟩ := hds
  induction ds generalizing around n with
  | nil => exact absurd rfl hne
  | cons d ds ih =>
      obtain ⟨hd, hdigit⟩ := List.forall_mem_cons.mp hdigit
      rw [List.cons_append, unclosedFrom_digit hd h, List.length_cons]
      cases ds with
      | nil => rfl
      | cons e ds =>
          have hagain : around.afterDigits.afterDigits = around.afterDigits := by
            cases around <;> rfl
          rw [ih h.afterDigits (n + 1) (List.cons_ne_nil e ds) hdigit, hagain,
            Nat.add_assoc, Nat.add_comm 1]

/-- What stands in front of an unclosed comment is found again in a renumbered text. -/
theorem unclosedFrom_renumbered {t t' : Text} (h : Renumbered t t') {done done' : Text}
    (hdone : Renumbered done done') {around : Surroundings} (haround : around.Digitless) :
    Option.Rel (fun n n' => Renumbered ((done ++ t).take n) ((done' ++ t').take n'))
      (unclosedFrom around done.length t) (unclosedFrom around done'.length t') := by
  induction h generalizing done done' around with
  | nil => cases around <;> exact .none
  | @other c t t' hc h ih =>
      have hnext : ∀ around : Surroundings, around.Digitless →
          Option.Rel (fun n n' => Renumbered ((done ++ c :: t).take n) ((done' ++ c :: t').take n'))
            (unclosedFrom around (done.length + 1) t)
            (unclosedFrom around (done'.length + 1) t') := by
        intro around haround
        have hrest := ih (hdone.append (.refl [c])) haround
        rwa [List.append_assoc, List.append_assoc, List.length_append, List.length_append] at hrest
      cases around with
      | plain =>
          rw [unclosedFrom, unclosedFrom]
          by_cases hquote : isQuote c = true
          · rw [if_pos hquote, if_pos hquote]
            exact hnext (.quoted c) hc
          · rw [if_neg hquote, if_neg hquote]
            simp only [h.head.eq_some_iff (c := '*') rfl]
            by_cases hopens : c = '/' ∧ t'.head? = some '*'
            · have htail := h.tail rfl ((h.head.eq_some_iff rfl).mpr hopens.2)
              rw [if_pos hopens, if_pos hopens]
              simp only [closes_renumbered htail, htail.head.eq_some_iff (c := '!') rfl]
              split
              · exact hnext .opener trivial
              · split
                · exact .none
                · refine .some ?_
                  rwa [List.take_left, List.take_left]
            · rw [if_neg hopens, if_neg hopens]
              exact hnext .plain trivial
      | quoted quote =>
          rw [unclosedFrom, unclosedFrom]
          split
          · exact hnext (.escaped quote) haround
          · split
            · exact hnext .plain trivial
            · exact hnext (.quoted quote) haround
      | comment =>
          rw [unclosedFrom, unclosedFrom]
          simp only [h.head.eq_some_iff (c := '/') rfl]
          split
          · exact hnext .closer trivial
          · exact hnext .comment trivial
      | escaped quote => exact hnext (.quoted quote) haround
      | opener => exact hnext .comment trivial
      | closer => exact hnext .plain trivial
  | run hds hds' hend h ih =>
      have hrest := ih (hdone.append (Renumbered.digits hds hds' .nil)) haround.afterDigits
      rw [unclosedFrom_digits hds haround, unclosedFrom_digits hds' haround]
      rwa [List.append_nil, List.append_nil, List.append_assoc, List.append_assoc,
        List.length_append, List.length_append] at hrest

theorem cutUnclosed_renumbered {t t' : Text} (h : Renumbered t t') :
    Renumbered (cutUnclosed t) (cutUnclosed t') := by
  have hcut : Option.Rel (fun n n' => Renumbered (t.take n) (t'.take n'))
      (unclosedFrom .plain 0 t) (unclosedFrom .plain 0 t') :=
    unclosedFrom_renumbered h .nil trivial
  rw [cutUnclosed, cutUnclosed]
  obtain ⟨hx, hx'⟩ | ⟨n, n', hx, hx', hfront⟩ := rel_cases hcut
  · rwa [hx, hx']
  · rwa [hx, hx']

theorem erase_renumbered {t t' : Text} (h : Renumbered t t') :
    Renumbered (erase t) (erase t') := by
  have hrest : Renumbered (eraseClosedAndCut t) (eraseClosedAndCut t') :=
    cutUnclosed_renumbered (removeAll_alike steady_line (removeAll_alike steady_block h))
  obtain ⟨hx, hx'⟩ | ⟨_, _, hx, hx', halike⟩ := rel_cases (find_alike steady_showQualifier hrest)
  · simpa only [erase, hx, hx'] using hrest
  · simpa only [erase, hx, hx'] using
      replaceAll_const_alike steady_version (halike.group 0) hrest

end Comment

/-! ### Data definitions -/

namespace DefinitionVerb

open Pattern

theorem steady_opening : Steady opening :=
  (steady_textStart.append blind_maybeBlanks
    |>.append (blind_group (blind_keywords (by decide)))).append blind_wordEdge

theorem ofStatement?_renumbered {t t' : Text} (h : Renumbered t t') :
    ofStatement? t = ofStatement? t' := by
  rw [ofStatement?, ofStatement?]
  obtain ⟨hx, hx'⟩ | ⟨_, _, hx, hx', halike⟩ := rel_cases (find_alike steady_opening h)
  · rw [hx, hx']
  · obtain ⟨verb, w, _, _, hw, _, hgroup⟩ := find_opening_eq_some hx
    have hreads : ((Hit.group _ 0).map foldLetter).all Char.isUpper = true :=
      hgroup ▸ hw ▸ isUpper_keyword verb
    simp only [hx, hx', (halike.group 0).eq_of_reads hreads]

end DefinitionVerb

/-! ### Shapes and verbs -/

namespace Classification

open Pattern

theorem steady_callOpening : Steady callOpening :=
  (steady_textStart.append blind_maybeBlanks |>.append (blind_keyword (by decide))
    |>.append blind_blanks).across
      (blindTo_group (blindTo_one_chars nofun (by decide) (by decide) (by decide)))
      (steady_char (by decide))

theorem steady_useOpening : Steady useOpening :=
  (steady_textStart.append blind_maybeBlanks |>.append (blind_keyword (by decide))).append
    blind_blanks

theorem steady_unlockOpening : Steady unlockOpening :=
  (steady_textStart.append blind_maybeBlanks).append (blind_keyword (by decide))

theorem steady_transactionOpening : Steady transactionOpening :=
  (steady_textStart.append blind_maybeBlanks |>.append (blind_keyword (by decide))
    |>.append blind_blanks).append (blind_group (blind_someOf (by decide)))

theorem steady_loadOpening : Steady loadOpening :=
  (steady_textStart.append blind_maybeBlanks).append (blind_keyword (by decide))

theorem steady_showOpening : Steady showOpening :=
  (steady_textStart.append blind_maybeBlanks |>.append (blind_keyword (by decide))).append
    blind_blanks

theorem steady_verb : Steady verb := by
  have hdigitless : ∀ c ∈ choices, digitless c.2.toList = true := by decide
  rw [verb_eq]
  refine (steady_wordEdge.append (blind_anyOf ?_)).append blind_wordEdge
  intro p hp
  obtain ⟨⟨start, w⟩, hchoice, rfl⟩ := List.mem_map.mp hp
  have hw := hdigitless _ hchoice
  cases start with
  | false => exact blind_keyword hw
  | true => exact blind_append blind_textStart (blind_keyword hw)

theorem findSome?_eq_none_of {rules : List (Text → Option Classification)} {t t' : Text}
    (h : ∀ rule ∈ rules, (rule t).isSome = (rule t').isSome)
    (hnone : rules.findSome? (· t) = none) : rules.findSome? (· t') = none := by
  rw [List.findSome?_eq_none_iff] at hnone ⊢
  intro rule hrule
  have hsome := h rule hrule
  rw [hnone rule hrule] at hsome
  exact Option.not_isSome_iff_eq_none.mp (Bool.eq_false_iff.mp hsome.symm)

section

variable {t t' : Text} (h : Renumbered t t')

include h

theorem procedureCall?_renumbered : (procedureCall? t).isSome = (procedureCall? t').isSome := by
  rw [procedureCall?, procedureCall?, Option.isSome_map, Option.isSome_map]
  exact occursIn_alike steady_callOpening h

theorem distributedTransaction?_renumbered :
    (distributedTransaction? t).isSome = (distributedTransaction? t').isSome := by
  rw [distributedTransaction?, distributedTransaction?, Option.isSome_map, Option.isSome_map]
  exact occursIn_alike steady_transactionOpening h

theorem bulkLoad?_renumbered : (bulkLoad? t).isSome = (bulkLoad? t').isSome := by
  rw [bulkLoad?, bulkLoad?, occursIn_alike steady_loadOpening h]
  split <;> rfl

theorem administration?_renumbered :
    (administration? t).isSome = (administration? t').isSome := by
  have hmark : administratorMark.isPrefixOf t = administratorMark.isPrefixOf t' := by
    rw [Bool.eq_iff_iff, List.isPrefixOf_iff_prefix, List.isPrefixOf_iff_prefix]
    exact h.prefix_iff (List.all_iff_forall_prop.mp (by decide))
  rw [administration?, administration?, hmark]
  split <;> rfl

theorem showing?_renumbered : (showing? t).isSome = (showing? t').isSome := by
  rw [showing?, showing?, occursIn_alike steady_showOpening h]
  split <;> rfl

theorem definition?_renumbered : (definition? t).isSome = (definition? t').isSome := by
  rw [definition?, definition?, DefinitionVerb.ofStatement?_renumbered h]
  split <;> rfl

theorem ofRaw?_renumbered (hraw : ofRaw? t = none) : ofRaw? t' = none := by
  have huse : databaseChoice? t = databaseChoice? t' := by
    rw [databaseChoice?, databaseChoice?, occursIn_alike steady_useOpening h]
  have hunlock : tableRelease? t = tableRelease? t' := by
    rw [tableRelease?, tableRelease?, occursIn_alike steady_unlockOpening h]
  refine findSome?_eq_none_of ?_ hraw
  simp only [List.forall_mem_cons]
  exact ⟨procedureCall?_renumbered h, congrArg _ huse, congrArg _ hunlock,
    distributedTransaction?_renumbered h, bulkLoad?_renumbered h, administration?_renumbered h,
    List.forall_mem_nil _⟩

theorem ofBare?_renumbered (hbare : ofBare? t = none) : ofBare? t' = none := by
  refine findSome?_eq_none_of ?_ hbare
  simp only [List.forall_mem_cons]
  exact ⟨showing?_renumbered h, definition?_renumbered h, List.forall_mem_nil _⟩

/-- The verbs of a statement have no numbers. -/
theorem verbsIn_renumbered : verbsIn t = verbsIn t' := by
  rw [verbsIn, verbsIn]
  congr 1
  rw [← List.forall₂_eq_eq_eq, List.forall₂_map_left_iff, List.forall₂_map_right_iff]
  refine (hits_alike steady_verb h).imp ?_
  rintro hit hit' ⟨hfound, halike⟩
  have hreads : (hit.text.map foldLetter).all Char.isUpper = true := by
    obtain hinner | ⟨_, hleading⟩ := verb_found hfound
    · exact isUpper_innerVerbs _ hinner
    · exact isUpper_leadingVerbs _ hleading
  rw [halike.text.eq_of_reads hreads]

end

/-- A statement that no shape claims is described by the same verbs whatever its numbers are. -/
theorem ofStatement_renumbered {t t' : Text} (h : Renumbered t t') (hraw : ofRaw? t = none)
    (hbare : ofBare? (Comment.erase t) = none) : ofStatement t = ofStatement t' := by
  have herase := Comment.erase_renumbered h
  rw [ofStatement_of_unclaimed hraw hbare, ofStatement_of_unclaimed (ofRaw?_renumbered h hraw)
    (ofBare?_renumbered herase hbare), verbsIn_renumbered herase]

end Classification
end QueryDigest
