import QueryDigest.Proofs.Pattern.LetterCase
import QueryDigest.Proofs.Statement.Literals
import QueryDigest.Proofs.Statement.Verbs
import QueryDigest.Proofs.Text.Repeats

/-!
Letter case and statements. Each pass over a statement ignores whether an ASCII letter is a capital,
so that a statement in capitals has the comments, the words and the tables of the statement itself,
in capitals.
-/

namespace QueryDigest

open Pattern
open Unicode (isBlank isAlpha_toUpper toUpper_beq toUpper_bne toUpper_eq_iff)

/-! ### Comments -/

namespace Comment

theorem ignores_block : block.Ignores Char.toUpper := by
  simp [block, anyChar, toUpper_bne]

theorem ignores_line : line.Ignores Char.toUpper := by
  simp [line, inLineComment, toUpper_bne]

theorem ignores_version : version.Ignores Char.toUpper := by
  simp [version, anyChar]

theorem ignores_showQualifier : showQualifier.Ignores Char.toUpper := by
  simp [showQualifier, anyChar]

theorem isQuote_toUpper (c : Char) : isQuote c.toUpper = isQuote c := by
  simp [isQuote, toUpper_beq]

theorem head?_map_toUpper {x : Char} (hx : x.isAlpha = false) (t : Text) :
    (t.map Char.toUpper).head? = some x ↔ t.head? = some x := by
  cases t with
  | nil => simp
  | cons c rest => simp [toUpper_eq_iff hx]

theorem closes_capitals (t : Text) : closes (t.map Char.toUpper) = closes t := by
  induction t with
  | nil => rfl
  | cons c rest ih =>
      have hslash : ((rest.map Char.toUpper).head? == some '/') = (rest.head? == some '/') := by
        rw [Bool.eq_iff_iff, beq_iff_eq, beq_iff_eq, head?_map_toUpper (by decide)]
      rw [List.map_cons, closes, closes, ih, hslash, toUpper_beq (by decide)]

/-- The quote around a place, where there is one, has no case. -/
def Surroundings.Caseless : Surroundings → Prop
  | .quoted quote | .escaped quote => quote.isAlpha = false
  | _ => True

theorem unclosedFrom_capitals (around : Surroundings) (h : around.Caseless) (n : Nat) (t : Text) :
    unclosedFrom around n (t.map Char.toUpper) = unclosedFrom around n t := by
  induction t generalizing around n with
  | nil => cases around <;> rfl
  | cons c rest ih =>
      rw [List.map_cons]
      cases around with
      | plain =>
          have hquote : isQuote c = true → c.isAlpha = false := by
            intro hc
            simp only [isQuote, Bool.or_eq_true, beq_iff_eq] at hc
            obtain (rfl | rfl) | rfl := hc <;> rfl
          have htail : (rest.map Char.toUpper).tail = rest.tail.map Char.toUpper := by simp
          have hmark : (rest.tail.map Char.toUpper).head? = some '!' ↔ rest.tail.head? = some '!' :=
            head?_map_toUpper (by decide) rest.tail
          simp only [unclosedFrom, isQuote_toUpper, toUpper_eq_iff (x := '/') (by decide),
            head?_map_toUpper (x := '*') (by decide), htail, closes_capitals, hmark,
            ih .plain trivial, ih .opener trivial]
          by_cases hc : isQuote c = true
          · rw [if_pos hc, if_pos hc, Unicode.toUpper_of_not_isAlpha (hquote hc)]
            exact ih (.quoted c) (hquote hc) (n + 1)
          · rw [if_neg hc, if_neg hc]
      | quoted quote =>
          simp only [unclosedFrom, toUpper_eq_iff h, toUpper_eq_iff (x := '\\') (by decide),
            ih (.escaped quote) h, ih .plain trivial, ih (.quoted quote) h]
      | escaped quote => exact ih (.quoted quote) h (n + 1)
      | opener => exact ih .comment trivial (n + 1)
      | comment =>
          simp only [unclosedFrom, toUpper_eq_iff (x := '*') (by decide),
            head?_map_toUpper (x := '/') (by decide), ih .closer trivial, ih .comment trivial]
      | closer => exact ih .plain trivial (n + 1)

theorem cutUnclosed_capitals (t : Text) :
    cutUnclosed (t.map Char.toUpper) = (cutUnclosed t).map Char.toUpper := by
  rw [cutUnclosed, cutUnclosed, unclosedFrom_capitals .plain trivial]
  cases unclosedFrom .plain 0 t with
  | none => rfl
  | some n => exact List.map_take.symm

theorem eraseClosedAndCut_capitals (t : Text) :
    eraseClosedAndCut (t.map Char.toUpper) = (eraseClosedAndCut t).map Char.toUpper := by
  rw [eraseClosedAndCut, removeAll_map ignores_block, removeAll_map ignores_line,
    cutUnclosed_capitals]
  rfl

theorem erase_capitals (t : Text) : erase (t.map Char.toUpper) = (erase t).map Char.toUpper := by
  unfold erase
  simp only [eraseClosedAndCut_capitals, find_map ignores_showQualifier]
  cases showQualifier.find (eraseClosedAndCut t) with
  | none => rfl
  | some h => exact replaceAll_map ignores_version (fun _ => Hit.group_map h 0) _

end Comment

/-! ### Names -/

namespace Identifier

theorem ignores_pattern : Identifier.pattern.Ignores Char.toUpper := by
  simp [Identifier.pattern, simple, quoted, backquote, toUpper_bne]

theorem unquoted_capitals (name : Text) :
    unquoted (name.map Char.toUpper) = (unquoted name).map Char.toUpper := by
  have hkeep : (fun c => c != backquote) ∘ Char.toUpper = fun c => c != backquote :=
    funext (toUpper_bne (by decide))
  rw [unquoted, unquoted, Text.without, Text.without, List.filter_map, hkeep]

end Identifier

theorem LoadTarget.ignores_clause : LoadTarget.clause.Ignores Char.toUpper := by
  simp [LoadTarget.clause, LoadTarget.notBlank]

theorem LoadTarget.ofStatement?_capitals (t : Text) :
    LoadTarget.ofStatement? (t.map Char.toUpper) =
      (LoadTarget.ofStatement? t).map (List.map Char.toUpper) := by
  rw [LoadTarget.ofStatement?, LoadTarget.ofStatement?, find_map LoadTarget.ignores_clause,
    Option.map_map, Option.map_map]
  congr 1
  funext h
  exact Hit.group_map h 0

theorem Unicode.fold_capitals (t : Text) :
    (t.map Char.toUpper).map Unicode.foldLetter = t.map Unicode.foldLetter := by
  simp only [List.map_map, Function.comp_def, Unicode.foldLetter_toUpper]

theorem Unicode.sameLetters_capitals (s t : Text) :
    Unicode.sameLetters s (t.map Char.toUpper) = Unicode.sameLetters s t := by
  rw [Unicode.sameLetters, Unicode.sameLetters, Unicode.fold_capitals]

/-! ### Data definitions -/

theorem DefinitionVerb.ofStatement?_capitals (t : Text) :
    DefinitionVerb.ofStatement? (t.map Char.toUpper) = DefinitionVerb.ofStatement? t := by
  have hopening : DefinitionVerb.opening.Ignores Char.toUpper := by
    simp [DefinitionVerb.opening]
  rw [DefinitionVerb.ofStatement?, DefinitionVerb.ofStatement?, find_map hopening]
  cases DefinitionVerb.opening.find t with
  | none => rfl
  | some h =>
      simp only [Option.map_some, Hit.group_map, Unicode.sameLetters_capitals]

theorem ObjectKind.ofStatement?_capitals (verb : DefinitionVerb) (t : Text) :
    ObjectKind.ofStatement? verb (t.map Char.toUpper) = ObjectKind.ofStatement? verb t := by
  have hbehind : (ObjectKind.behind verb).Ignores Char.toUpper := by
    simp [ObjectKind.behind, inLine, toUpper_bne]
  rw [ObjectKind.ofStatement?, ObjectKind.ofStatement?, find_map hbehind]
  cases (ObjectKind.behind verb).find t with
  | none => rfl
  | some h =>
      simp only [Option.map_some, Hit.group_map, Unicode.sameLetters_capitals]

/-! ### Classification -/

namespace Classification

/-- A classification with capitals in the texts that are taken over from the statement as it is. -/
def capitals : Classification → Classification
  | .procedureCall procedure => .procedureCall procedure.capitals
  | .bulkLoad table => .bulkLoad table.capitals
  | .definition verb kind object => .definition verb kind object.capitals
  | c => c

theorem procedureCall?_capitals (t : Text) :
    procedureCall? (t.map Char.toUpper) = (procedureCall? t).map capitals := by
  have hcall : callOpening.Ignores Char.toUpper := by
    simp [callOpening, LoadTarget.notBlank]
  rw [procedureCall?, procedureCall?, find_map hcall, Option.map_map, Option.map_map]
  congr 1
  funext h
  exact congrArg procedureCall (Hit.group_map h 0)

theorem databaseChoice?_capitals (t : Text) :
    databaseChoice? (t.map Char.toUpper) = (databaseChoice? t).map capitals := by
  have huse : useOpening.Ignores Char.toUpper := by simp [useOpening]
  rw [databaseChoice?, databaseChoice?, occursIn_map huse]
  split <;> rfl

theorem tableRelease?_capitals (t : Text) :
    tableRelease? (t.map Char.toUpper) = (tableRelease? t).map capitals := by
  have hunlock : unlockOpening.Ignores Char.toUpper := by simp [unlockOpening]
  rw [tableRelease?, tableRelease?, occursIn_map hunlock]
  split <;> rfl

theorem distributedTransaction?_capitals (t : Text) :
    distributedTransaction? (t.map Char.toUpper) = (distributedTransaction? t).map capitals := by
  have hxa : transactionOpening.Ignores Char.toUpper := by
    simp [transactionOpening, LoadTarget.notBlank]
  rw [distributedTransaction?, distributedTransaction?, find_map hxa, Option.map_map,
    Option.map_map]
  congr 1
  funext h
  simp only [Function.comp, Hit.group_map, Unicode.upper_capitals]
  rfl

theorem bulkLoad?_capitals (t : Text) :
    bulkLoad? (t.map Char.toUpper) = (bulkLoad? t).map capitals := by
  have hload : loadOpening.Ignores Char.toUpper := by simp [loadOpening]
  rw [bulkLoad?, bulkLoad?, occursIn_map hload, LoadTarget.ofStatement?_capitals]
  split
  · cases LoadTarget.ofStatement? t with
    | none => rfl
    | some table => exact congrArg (some ∘ bulkLoad) (Identifier.unquoted_capitals table)
  · rfl

/-- An administrator's command is announced in lower case. -/
theorem administration?_capitals {t : Text} (h : ¬ administratorMark <+: t) :
    administration? (t.map Char.toUpper) = (administration? t).map capitals := by
  have hcapital : ¬ administratorMark <+: t.map Char.toUpper := by
    rintro ⟨more, hmore⟩
    have ha : 'a' ∈ t.map Char.toUpper := hmore ▸ List.mem_append_left _ (by decide)
    obtain ⟨c, _, hc⟩ := List.mem_map.mp ha
    have hself := Unicode.toUpper_toUpper c
    rw [hc] at hself
    revert hself
    decide
  rw [administration?, administration?, if_neg (mt List.isPrefixOf_iff_prefix.mp hcapital),
    if_neg (mt List.isPrefixOf_iff_prefix.mp h)]
  rfl

theorem showing?_capitals (t : Text) :
    showing? (t.map Char.toUpper) = (showing? t).map capitals := by
  have hshow : showOpening.Ignores Char.toUpper := by simp [showOpening]
  rw [showing?, showing?, occursIn_map hshow, showPhrase, showPhrase, Unicode.upper_capitals]
  split <;> rfl

theorem definition?_capitals (t : Text) :
    definition? (t.map Char.toUpper) = (definition? t).map capitals := by
  have hexistence : existenceClause.Ignores Char.toUpper := by simp [existenceClause]
  have hobject : namedObject.Ignores Char.toUpper := by
    simp [namedObject, Identifier.ignores_pattern]
  rw [definition?, definition?, DefinitionVerb.ofStatement?_capitals]
  cases DefinitionVerb.ofStatement? t with
  | none => rfl
  | some verb =>
      simp only [replaceAll_map hexistence (g := fun _ => [' ']) (k := fun _ => [' '])
        (fun _ => rfl), find_map hobject, ObjectKind.ofStatement?_capitals]
      cases namedObject.find (existenceClause.replaceAll (fun _ => [' ']) t) with
      | none => rfl
      | some h => exact congrArg (some ∘ definition verb _) (Hit.group_map h 0)

theorem verbsIn_capitals (t : Text) : verbsIn (t.map Char.toUpper) = verbsIn t := by
  have hchoices : ∀ p ∈ choices.map choice, p.Ignores Char.toUpper := by
    intro p hp
    obtain ⟨⟨start, w⟩, _, rfl⟩ := List.mem_map.mp hp
    cases start <;> simp [choice]
  have hverb : verb.Ignores Char.toUpper := by
    rw [verb_eq]
    exact ⟨⟨ignores_wordEdge, ignores_anyOf hchoices⟩, ignores_wordEdge⟩
  rw [verbsIn, verbsIn, hits_map hverb, List.map_map]
  congr 2
  funext h
  rw [Function.comp, Hit.text_map, Unicode.upper_capitals]

theorem findSome?_capitals {rules : List (Text → Option Classification)} {t : Text}
    (h : ∀ rule ∈ rules, rule (t.map Char.toUpper) = (rule t).map capitals) :
    rules.findSome? (· (t.map Char.toUpper)) = (rules.findSome? (· t)).map capitals := by
  induction rules with
  | nil => rfl
  | cons rule rules ih =>
      rw [List.findSome?_cons, List.findSome?_cons, h rule List.mem_cons_self,
        ih fun rule hrule => h rule (List.mem_cons_of_mem _ hrule)]
      cases rule t <;> rfl

/-- A statement in capitals has the same shape, with capitals in what is taken over from it. -/
theorem ofStatement_capitals {t : Text} (h : ¬ administratorMark <+: t) :
    ofStatement (t.map Char.toUpper) = (ofStatement t).capitals := by
  have hraw : ofRaw? (t.map Char.toUpper) = (ofRaw? t).map capitals := by
    apply findSome?_capitals
    simp only [List.forall_mem_cons]
    exact ⟨procedureCall?_capitals t, databaseChoice?_capitals t, tableRelease?_capitals t,
      distributedTransaction?_capitals t, bulkLoad?_capitals t, administration?_capitals h,
      List.forall_mem_nil _⟩
  have hbare : ofBare? ((Comment.erase t).map Char.toUpper) =
      (ofBare? (Comment.erase t)).map capitals := by
    apply findSome?_capitals
    simp only [List.forall_mem_cons]
    exact ⟨showing?_capitals _, definition?_capitals _, List.forall_mem_nil _⟩
  rw [ofStatement, ofStatement, hraw]
  cases ofRaw? t with
  | some c => rfl
  | none =>
      simp only [Option.map_none, Comment.erase_capitals, hbare, verbsIn_capitals]
      cases ofBare? (Comment.erase t) <;> rfl

/-! ### Words -/

/-- The texts that are written in upper case have no lower-case ASCII letters. -/
def Raised : Classification → Prop
  | .distributedTransaction text | .administration text | .showing text => Unicode.Raised text
  | .verbWords found => ∀ x ∈ found, Unicode.Raised x
  | _ => True

theorem raised_showPhrase (t : Text) : Unicode.Raised (showPhrase t) := by
  have hreplace : ∀ {p : Pattern} {r t : Text}, Unicode.Raised r → Unicode.Raised t →
      Unicode.Raised (p.replaceAll (fun _ => r) t) :=
    fun hr ht c hc => (mem_replaceAll_const hc).elim (ht c) (hr c)
  have hblank : Unicode.Raised [' '] := List.forall_mem_singleton.mpr (by decide)
  have hnil : Unicode.Raised [] := List.forall_mem_nil _
  have hcut := hreplace (p := showClause) hnil (hreplace (p := showCount) hnil
    (hreplace (p := showFiller) hblank (Unicode.raised_upper t)))
  exact hreplace hblank fun c hc => hcut c (mem_replaceFirst_group hc)

theorem Fits.raised {t : Text} {c : Classification} (h : Fits t c) : c.Raised := by
  cases h with
  | procedureCall _ | databaseChoice _ | tableRelease _ | bulkLoad _ | definition _ _ => trivial
  | distributedTransaction _ | administration _ => exact Unicode.raised_upper _
  | showing _ => exact raised_showPhrase _
  | verbWords =>
      intro x hx
      obtain ⟨hit, _, rfl⟩ := List.mem_map.mp (mem_of_mem_withoutRepeats hx)
      exact Unicode.raised_upper hit.text

theorem raised_ofStatement (t : Text) : (ofStatement t).Raised :=
  (fits_ofStatement t).raised

theorem raised_spaced {xs : List Text} (h : ∀ x ∈ xs, Unicode.Raised x) :
    Unicode.Raised (Text.spaced xs) := by
  intro c hc
  obtain hc | ⟨x, hx, hc⟩ := Text.mem_join hc
  · rw [List.mem_singleton.mp hc]
    decide
  · exact h x hx c hc

theorem words_capitals {c : Classification} (h : c.Raised) :
    c.capitals.words = c.words.map Char.toUpper := by
  cases c with
  | procedureCall procedure =>
      have hcall : Unicode.Raised "CALL ".toList := List.all_iff_forall_prop.mp (by decide)
      exact (hcall.capitals_append procedure).symm
  | databaseChoice | tableRelease => rfl
  | distributedTransaction command =>
      have hxa : Unicode.Raised "XA_".toList := List.all_iff_forall_prop.mp (by decide)
      have hcommand : Unicode.Raised command := h
      change "XA_".toList ++ command = ("XA_".toList ++ command).map Char.toUpper
      rw [hxa.capitals_append, hcommand.capitals]
  | bulkLoad table =>
      have hload : Unicode.Raised "LOAD DATA ".toList := List.all_iff_forall_prop.mp (by decide)
      exact (hload.capitals_append table).symm
  | administration text | showing text => exact (Unicode.Raised.capitals h).symm
  | definition verb kind object =>
      cases verb <;> rcases kind with _ | _ | _ <;> rfl
  | verbWords found =>
      exact (raised_spaced fun x hx => h x (mem_of_mem_settled hx)).capitals.symm

theorem object_capitals (c : Classification) :
    c.capitals.object = c.object.map Char.toUpper := by
  cases c <;> rfl

end Classification

end QueryDigest
