import QueryDigest.Proofs.Statement.Literals
import QueryDigest.Proofs.Statement.TableClauses

/-!
Statements that select all columns. What is bound to the start of a statement looks no further than
their first two words, so clauses are looked for in such a statement as it is written, but for what
the passes over the whole of it change.
-/

namespace QueryDigest.Extraction

open Pattern

/-- A statement that selects all columns, with the text behind the columns. -/
def selectStar (t : Text) : Text :=
  "SELECT ".toList ++ '*' :: t

/-- A shape bound to the start of a statement does not see what stands behind the star. -/
theorem find_selectStar {p : Pattern} (hp : p.Anchored) (hnear : p.Near)
    (havoid : p.avoids ['*'] = true) (hselect : p.occursIn ("SELECT ".toList ++ ['*']) = false)
    (t : Text) : p.find (selectStar t) = none := by
  have hoccurs := occursIn_upTo hp hnear ['*'] havoid List.mem_cons_self "SELECT ".toList t
  rw [hselect, occursIn, Option.isSome_eq_false_iff, Option.isNone_iff_eq_none] at hoccurs
  exact hoccurs

theorem ofStatement?_selectStar (t : Text) : DefinitionVerb.ofStatement? (selectStar t) = none :=
  DefinitionVerb.ofStatement?_of_word (w := "SELECT".toList) (by decide) (by decide) rfl
    fun verb => by cases verb <;> decide

/-- The clauses of a query are those behind its columns. -/
theorem lists_selectStar {t : Text} {found : List Text}
    (h : ∀ before, isWordAt before.head? = false → TableClause.Yields before t [] found) :
    TableClause.lists (selectStar (' ' :: t)) = found := by
  have hselect : TableClause.Yields [] "SELECT".toList (" * ".toList ++ t ++ []) [] :=
    TableClause.yields_word (by decide) (by decide) [] rfl
  have hbehind : ∀ before, TableClause.Yields before (" * ".toList ++ t) [] found := fun _ =>
    .mark rfl (.mark rfl (.mark rfl (h _ rfl)))
  exact (hselect.append (hbehind _)).lists

variable {t t' : Text}
  (hmodifier : modifier.replaceAll (fun _ => [' ']) (selectStar t) = selectStar t')
  (hblank : blankLiterals (selectStar t') = selectStar t')

include hmodifier hblank

theorem scanned_selectStar : scanned (selectStar t) = selectStar t' := by
  have hlock : lockOpening.find (selectStar t') = none := by
    apply find_selectStar (((anchored_textStart.append maybeBlanks).append _).append blanks)
    · simp
    · decide
    · decide
  have hinsert : insertOpening.find (selectStar t') = none := by
    apply find_selectStar ((anchored_textStart.append maybeBlanks).append _)
    · simp
    · decide
    · decide
  rw [scanned, unlocked, hmodifier, locked?, hlock]
  change spellInto (blankLiterals (selectStar t')) = selectStar t'
  rw [hblank, spellInto, hinsert]

/-- The tables of a query are those of its clauses. -/
theorem tablesOf_selectStar : tablesOf (selectStar t) =
    ((TableClause.lists (selectStar t')).flatMap TableClause.tables).eraseDups := by
  have hload : loadOpening.find (selectStar t') = none := by
    apply find_selectStar ((anchored_textStart.append maybeBlanks).append _)
    · simp
    · decide
    · decide
  rw [tablesOf, ofStatement, ofStatement?_selectStar, tables_ofClauses_eq,
    scanned_selectStar hmodifier hblank, occursIn, hload]
  rfl

end QueryDigest.Extraction
