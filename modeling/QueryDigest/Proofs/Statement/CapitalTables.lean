import QueryDigest.Proofs.Statement.Capitals
import QueryDigest.Proofs.Statement.DefiningQueries

/-!
Letter case and tables. The passes over a statement commute with writing it in capitals, and so do
the search for clauses and the reading of names, so that the tables of a statement in capitals are
those of the statement, in capitals and again without repeats.
-/

namespace QueryDigest

open Pattern
open Unicode (toUpper_beq toUpper_bne)

/-! ### Clauses -/

namespace TableClause

theorem ignores_pattern : TableClause.pattern.Ignores Char.toUpper := by
  simp [TableClause.pattern, nameList, otherName, Identifier.ignores_pattern]

theorem followsKey_capitals (before : Text) :
    followsKey (before.map Char.toUpper) = followsKey before := by
  match before with
  | [] | [_] | [_, _] | [_, _, _] => rfl
  | blank :: y :: e :: k :: rest => simp [followsKey]

theorem updatesColumns_map (h : Hit) : updatesColumns (h.map Char.toUpper) = updatesColumns h := by
  have hkey : followsKey (h.map Char.toUpper).start.before = followsKey h.start.before :=
    followsKey_capitals h.start.before
  rw [updatesColumns, updatesColumns, Hit.group_map, hkey, Unicode.sameLetters,
    Unicode.sameLetters, Unicode.fold_capitals]

theorem listsFrom_map (most : Nat) (place : Cursor) :
    listsFrom most (place.map Char.toUpper) =
      (listsFrom most place).map (List.map Char.toUpper) := by
  induction most generalizing place with
  | zero => rfl
  | succ most ih =>
      rw [listsFrom, listsFrom, findFrom_map ignores_pattern]
      cases pattern.findFrom place with
      | none => rfl
      | some h =>
          have hskip : (h.map Char.toUpper).start.skip 1 = (h.start.skip 1).map Char.toUpper := by
            simp [Hit.map, Cursor.map, Cursor.skip]
          simp only [Option.map_some, updatesColumns_map, hskip, Hit.stop_map, Hit.group_map, ih]
          split <;> rfl

theorem lists_capitals (t : Text) :
    lists (t.map Char.toUpper) = (lists t).map (List.map Char.toUpper) := by
  rw [lists, lists, List.length_map]
  exact listsFrom_map (t.length + 1) (.start t)

theorem splitOn_capitals (list : Text) :
    (list.map Char.toUpper).splitOn ',' = (list.splitOn ',').map (List.map Char.toUpper) := by
  induction list with
  | nil => rfl
  | cons c rest ih =>
      rw [List.splitOn, List.splitOn] at ih
      rw [List.map_cons, List.splitOn, List.splitOn, List.splitOnP_cons_eq_if_modifyHead,
        List.splitOnP_cons_eq_if_modifyHead, toUpper_beq (by decide), ih]
      split
      · rfl
      · cases List.splitOnP (· == ',') rest <;> rfl

theorem names_capitals (list : Text) :
    names (list.map Char.toUpper) = (names list).map (List.map Char.toUpper) := by
  have hsubquery : subquery.Ignores Char.toUpper := by simp [subquery]
  have hreference : reference.Ignores Char.toUpper := by
    simp [reference, Identifier.ignores_pattern, inLine, toUpper_bne]
  rw [names, names, occursIn_map hsubquery]
  split
  · rfl
  · rw [splitOn_capitals, List.map_map, List.map_map]
    congr 1
    funext element
    exact replaceAll_map hreference (fun h => Hit.group_map h 0) element

theorem tables_capitals (list : Text) :
    tables (list.map Char.toUpper) = (tables list).map (List.map Char.toUpper) := by
  have hletter : Text.hasLetter ∘ List.map Char.toUpper = Text.hasLetter := by
    funext name
    simp [Text.hasLetter, List.any_map, Function.comp_def]
  rw [tables, tables, names_capitals, List.filter_map, hletter]

end TableClause

namespace Extraction

/-! ### Passes over a statement with clauses -/

theorem unlocked_capitals (t : Text) :
    unlocked (t.map Char.toUpper) = (unlocked t).map Char.toUpper := by
  have hmodifier : modifier.Ignores Char.toUpper := by simp [modifier]
  have hopening : lockOpening.Ignores Char.toUpper := by simp [lockOpening]
  have hmode : lockMode.Ignores Char.toUpper := by simp [lockMode]
  simp only [unlocked, replaceAll_map hmodifier (g := fun _ => [' ']) (k := fun _ => [' '])
    (fun _ => rfl), locked?, find_map hopening]
  cases lockOpening.find (modifier.replaceAll (fun _ => [' ']) t) with
  | none => rfl
  | some h =>
      have hafter : (h.map Char.toUpper).stop.after = h.stop.after.map Char.toUpper :=
        congrArg Cursor.after (Hit.stop_map h)
      simp only [Option.map_some, withLocks, hafter, removeAll_map hmode, List.map_append]
      rfl

theorem blankLiterals_capitals (t : Text) :
    blankLiterals (t.map Char.toUpper) = (blankLiterals t).map Char.toUpper := by
  have hescape : escapedQuote.Ignores Char.toUpper := by simp [escapedQuote, toUpper_beq]
  have hliteral : ∀ {q : Char}, q.isAlpha = false → (literal q).Ignores Char.toUpper := by
    intro q hq
    simp [literal, hq, toUpper_bne]
  have hmark : ∀ h : Hit, ['?'] = ((fun _ => ['?']) h : Text).map Char.toUpper := fun _ => rfl
  rw [blankLiterals, removeAll_map hescape, replaceAll_map (hliteral (by decide)) hmark,
    replaceAll_map (hliteral (by decide)) hmark]
  rfl

theorem spellInto_capitals (t : Text) :
    spellInto (t.map Char.toUpper) = (spellInto t).map Char.toUpper := by
  have hopening : insertOpening.Ignores Char.toUpper := by simp [insertOpening]
  have hinto : leadingInto.Ignores Char.toUpper := by simp [leadingInto]
  have hprefix : insertPrefix.Ignores Char.toUpper := by simp [insertPrefix]
  rw [spellInto, spellInto, find_map hopening]
  cases insertOpening.find t with
  | none => rfl
  | some h =>
      have hafter : (h.map Char.toUpper).stop.after = h.stop.after.map Char.toUpper :=
        congrArg Cursor.after (Hit.stop_map h)
      simp only [Option.map_some, hafter, occursIn_map hinto]
      split
      · rfl
      · apply replaceFirst_map hprefix
        intro p
        rw [Hit.group_map, List.map_append]
        rfl

theorem scanned_capitals (t : Text) :
    scanned (t.map Char.toUpper) = (scanned t).map Char.toUpper := by
  rw [scanned, scanned, unlocked_capitals, blankLiterals_capitals, spellInto_capitals]

theorem tables_ofClauses_capitals (t : Text) :
    (ofClauses (t.map Char.toUpper)).tables =
      (ofClauses t).tables.map (List.map Char.toUpper) := by
  have hload : loadOpening.Ignores Char.toUpper := by simp [loadOpening]
  rw [tables_ofClauses_eq, tables_ofClauses_eq, scanned_capitals, occursIn_map hload,
    LoadTarget.ofStatement?_capitals, TableClause.lists_capitals]
  split
  · cases LoadTarget.ofStatement? (scanned t) <;> rfl
  · rw [List.flatMap_map, List.map_flatMap]
    congr 1
    funext list
    exact TableClause.tables_capitals list

/-! ### Tables of any statement -/

theorem definingQuery?_capitals (t : Text) :
    definingQuery? (t.map Char.toUpper) = (definingQuery? t).map (List.map Char.toUpper) := by
  have hcreate : createSelect.Ignores Char.toUpper := by
    simp [createSelect, inLine, toUpper_bne]
  have htail : selectTail.Ignores Char.toUpper := by simp [selectTail, anyChar]
  rw [definingQuery?, definingQuery?, occursIn_map hcreate, find_map htail]
  split
  · rw [Option.map_map, Option.map_map]
    congr 1
    funext h
    exact Hit.group_map h 0
  · rfl

theorem tables_ofStatement_capitals (t : Text) :
    (ofStatement (t.map Char.toUpper)).tables =
      (ofStatement t).tables.map (List.map Char.toUpper) := by
  have hexistence : existenceClause.Ignores Char.toUpper := by simp [existenceClause]
  have hdatabase : ∀ verb, (databaseBehind verb).Ignores Char.toUpper := by
    intro verb
    simp [databaseBehind]
  have hname : tableName.Ignores Char.toUpper := by
    simp [tableName, Identifier.ignores_pattern]
  induction hlength : t.length using Nat.strongRecOn generalizing t with
  | ind n ih =>
    have hcapitals := DefinitionVerb.ofStatement?_capitals t
    cases hverb : DefinitionVerb.ofStatement? t with
    | none =>
        rw [ofStatement_of_none hverb, ofStatement_of_none (hcapitals.trans hverb)]
        exact tables_ofClauses_capitals t
    | some verb =>
        rw [ofStatement_of_verb hverb, ofStatement_of_verb (hcapitals.trans hverb), ofDefinition,
          ofDefinition, removeAll_map hexistence, occursIn_map (hdatabase verb),
          definingQuery?_capitals, find_map hname]
        split
        · rfl
        · cases hquery : definingQuery? (existenceClause.removeAll t) with
          | some query => exact ih _ (hlength ▸ length_definingQuery? hverb hquery) query rfl
          | none =>
              cases tableName.find (existenceClause.removeAll t) with
              | none => rfl
              | some h => exact congrArg (fun name => [name]) (Hit.group_map h 0)

end Extraction

theorem tablesOf_capitals (t : Text) :
    tablesOf (t.map Char.toUpper) = ((tablesOf t).map (List.map Char.toUpper)).eraseDups := by
  rw [tablesOf, tablesOf, Extraction.tables_ofStatement_capitals, List.eraseDups_map_eraseDups]

/-- A statement in capitals has the comments, the words, the object and the tables of the statement
in capitals, where two tables may have become one. -/
theorem digest_of_capitals (q : Text) (h : ¬ Classification.administratorMark <+: q) :
    Comment.erase q.capitals = (Comment.erase q).capitals ∧
      (Classification.ofStatement q.capitals).words =
        (Classification.ofStatement q).words.capitals ∧
      (Classification.ofStatement q.capitals).object =
        (Classification.ofStatement q).object.capitals ∧
      tablesOf q.capitals = ((tablesOf q).map Text.capitals).eraseDups := by
  have hshape : Classification.ofStatement q.capitals = (Classification.ofStatement q).capitals :=
    Classification.ofStatement_capitals h
  refine ⟨Comment.erase_capitals q, ?_, ?_, tablesOf_capitals q⟩
  · rw [hshape]
    exact Classification.words_capitals (Classification.raised_ofStatement q)
  · rw [hshape]
    exact Classification.object_capitals _

/-- Two spellings of one table become one, and a long s stays as it is. -/
theorem digest_of_capitals_join :
    ¬ Classification.administratorMark <+: "select -- b\n * from a join \u017fa, A".toList ∧
      Comment.erase (Text.capitals "select -- b\n * from a join \u017fa, A".toList) =
        "SELECT \n * FROM A JOIN \u017fA, A".toList ∧
      tablesOf (Text.capitals "select -- b\n * from a join \u017fa, A".toList) =
        ["A".toList, "\u017fA".toList] := by
  have h : ¬ Classification.administratorMark <+:
      "select -- b\n * from a join \u017fa, A".toList := by
    decide
  obtain ⟨herase, _, _, htables⟩ := digest_of_capitals _ h
  exact ⟨h, herase.trans (by decide +kernel), htables.trans (by decide +kernel)⟩

end QueryDigest
