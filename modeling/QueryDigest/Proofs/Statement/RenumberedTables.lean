import QueryDigest.Proofs.Statement.DefiningQueries
import QueryDigest.Proofs.Statement.Literals
import QueryDigest.Proofs.Statement.RenumberedTexts
import QueryDigest.Proofs.Statement.TableClauses

/-!
Tables of statements with other numbers. Every pass over a statement leaves renumbered texts, the
same clauses are found in them, and the names in these clauses are the same but for their numbers.
-/

namespace QueryDigest

open Pattern
open Text (isDigitAt Digits Renumbered)
open Unicode (foldLetter isBlank isWord)

/-! ### Names -/

namespace Identifier

theorem blind_quoted : Blind quoted :=
  blind_append (blind_append (blind_char (by decide)) (blind_someOf (by decide)))
    (blind_char (by decide))

theorem blind_pattern : Blind Identifier.pattern :=
  blind_append (blind_or blind_quoted blind_word)
    (blind_optional (blind_append (blind_char (by decide)) (blind_or blind_quoted blind_word)))

/-- A name that starts with a digit starts with a word. -/
theorem run_of_digit {a : Attempt} {d : Char} {rest : Text} (hafter : a.after = d :: rest)
    (hd : d.isDigit = true) (onward : Onward) :
    Identifier.pattern.run a onward =
      (optional (char '.' ++ simple)).run (a.furthest isWord) onward := by
  have hquote : a.after.head? ≠ some backquote := by
    rw [hafter]
    rintro ⟨⟩
    cases hd
  have hnext := Attempt.next?_eq_some.mpr ⟨d, rest, hafter, isWord_of_isDigit hd, rfl⟩
  rw [Identifier.pattern, run_append, simple, run_or, quoted, run_append, run_append,
    run_char_none hquote, Option.none_or, word, run_someOf_furthest, hnext, Option.bind_some]

end Identifier

theorem LoadTarget.steady_clause : Steady LoadTarget.clause :=
  (steady_keyword (by decide) (by decide)).append blind_blanks |>.append
    (blind_group (blind_someOf (by decide)))

theorem LoadTarget.ofStatement?_renumbered {t t' : Text} (h : Renumbered t t') :
    Option.Rel Renumbered (LoadTarget.ofStatement? t) (LoadTarget.ofStatement? t') :=
  group_alike (find_alike steady_clause h) 0

namespace TableClause

theorem blind_nameList : Blind nameList :=
  blind_append Identifier.blind_pattern (blind_many
    (blind_append (blind_append (blind_append
      (blind_optional (blind_append (blind_append blind_blanks
        (blind_optional (blind_append (blind_keyword (by decide)) blind_blanks))) blind_word))
      (blind_char (by decide))) blind_maybeBlanks) Identifier.blind_pattern))

theorem steady_pattern : Steady TableClause.pattern :=
  steady_wordEdge.append (blind_group (blind_keywords (by decide))) |>.append blind_wordEdge
    |>.append blind_maybeBlanks |>.append (blind_optional (blind_char (by decide)))
    |>.append (blind_group blind_nameList)

theorem steady_subquery : Steady subquery :=
  steady_textStart.append (blind_keyword (by decide)) |>.append blind_wordEdge

theorem blind_reference : Blind reference :=
  blind_append (blind_append blind_maybeBlanks (blind_group Identifier.blind_pattern))
    (blind_optional (blind_append blind_blanks (blind_allOf (by decide))))

/-! ### Clauses -/

theorem sameLetters_renumbered {s s' k : Text}
    (hk : (k.map foldLetter).all Char.isUpper = true) (h : Renumbered s s') :
    Unicode.sameLetters s k = Unicode.sameLetters s' k := by
  have hsame : ∀ {s s' : Text}, Renumbered s s' → Unicode.sameLetters s k = true →
      Unicode.sameLetters s' k = true := by
    intro s s' h hs
    have hfold : s.map foldLetter = k.map foldLetter := beq_iff_eq.mp hs
    rwa [← h.eq_of_reads (hfold ▸ hk)]
  rw [Bool.eq_iff_iff]
  exact ⟨hsame h, hsame h.symm⟩

theorem followsKey_of_renumbered {before before' : Text} (h : Renumbered before before')
    (hkey : followsKey before = true) : followsKey before' = true := by
  match before, hkey with
  | blank :: y :: e :: k :: rest, hkey =>
      have hother : ∀ (ok : Char → Bool) {c : Char}, lacksDigits ok = true → ok c = true →
          c.isDigit = false := by
        intro ok c hok hc
        refine Bool.eq_false_iff.mpr fun hdigit => ?_
        rw [not_ok_of_lacksDigits hok hdigit] at hc
        cases hc
      have hparts : isBlank blank = true ∧ (k.toUpper == 'K') = true ∧
          (e.toUpper == 'E') = true ∧ (y.toUpper == 'Y') = true := by
        simpa [followsKey] using hkey
      obtain ⟨hblank, hk, he, hy⟩ := hparts
      have hno : ∀ c ∈ [blank, y, e, k], c.isDigit = false := by
        simp only [List.forall_mem_cons]
        exact ⟨hother isBlank (by decide) hblank, hother (·.toUpper == 'Y') (by decide) hy,
          hother (·.toUpper == 'E') (by decide) he, hother (·.toUpper == 'K') (by decide) hk,
          List.forall_mem_nil _⟩
      obtain ⟨rest', rfl⟩ := (h.prefix_iff hno).mp ⟨rest, rfl⟩
      exact hkey

theorem updatesColumns_alike {h h' : Hit} (halike : h.Alike h') :
    updatesColumns h = updatesColumns h' := by
  have hkey : followsKey h.start.before = followsKey h'.start.before := by
    rw [Bool.eq_iff_iff]
    exact ⟨followsKey_of_renumbered halike.start.before,
      followsKey_of_renumbered halike.start.before.symm⟩
  rw [updatesColumns, updatesColumns, sameLetters_renumbered (by decide) (halike.group 0), hkey]

/-- The place behind the first character of a clause, which is a letter. -/
theorem clause_skip {h h' : Hit} (halike : h.Alike h') (hfound : h.FoundBy TableClause.pattern) :
    (h.start.skip 1).Abreast (h'.start.skip 1) := by
  obtain ⟨_, k, hk, w, rest, hafter, hw, _⟩ := clause_opens hfound
  have hupper : ∀ k ∈ anchors, k ≠ [] ∧ (k.map foldLetter).all Char.isUpper = true := by decide
  obtain ⟨c, w, rfl⟩ := List.exists_cons_of_ne_nil (word_of_anchor hk hw).1
  have hc := List.all_eq_true.mp (hw ▸ (hupper k hk).2) _ List.mem_cons_self
  refine halike.start.skip_one (Unicode.isDigit_of_isUpper_foldLetter hc) ?_
  rw [hafter]
  rfl

/-- The same clauses are found in renumbered texts, and renumbered lists of names in them. -/
theorem listsFrom_renumbered {most most' : Nat} {place place' : Cursor}
    (h : place.Abreast place') (hmost : place.after.length < most)
    (hmost' : place'.after.length < most') :
    List.Forall₂ Renumbered (listsFrom most place) (listsFrom most' place') := by
  induction most generalizing most' place place' with
  | zero => cases hmost
  | succ most ih =>
      cases most' with
      | zero => cases hmost'
      | succ most' =>
          rw [listsFrom, listsFrom]
          obtain ⟨hfind, hfind'⟩ | ⟨hit, hit', hfind, hfind', halike⟩ :=
            rel_cases (findFrom_alike steady_pattern h)
          · rw [hfind, hfind']
            exact .nil
          · obtain ⟨_, _, _, hmatch⟩ := findBetween_some hfind
            obtain ⟨_, _, _, hmatch'⟩ := findBetween_some hfind'
            have hone := length_skip hfind Nat.one_pos
            have hone' := length_skip hfind' Nat.one_pos
            have hstop : hit.stop.after.length < _ := length_skip hfind (clause_moves hmatch)
            have hstop' : hit'.stop.after.length < _ := length_skip hfind' (clause_moves hmatch')
            have hskip := clause_skip halike (foundBy_of_matchAt? hmatch)
            simp only [hfind, hfind', updatesColumns_alike halike]
            split
            · exact ih hskip (by omega) (by omega)
            · exact .cons (halike.group 1) (ih halike.stop (by omega) (by omega))

theorem lists_renumbered {t t' : Text} (h : Renumbered t t') :
    List.Forall₂ Renumbered (lists t) (lists t') :=
  listsFrom_renumbered (.start h) (Nat.lt_succ_self _) (Nat.lt_succ_self _)

theorem takes_reference : Takes reference := by
  refine takes_of_run fun a hdigit => ?_
  obtain ⟨d, rest, hafter, hd⟩ := Text.exists_of_isDigitAt hdigit
  have hword := isWord_of_isDigit hd
  have hnothing : ∀ c ∈ ([] : Text), isBlank c = true := List.forall_mem_nil _
  have hblank : ∀ c, a.after.head? = some c → isBlank c = false := by
    intro c hc
    rw [hafter] at hc
    obtain rfl := Option.some.inj hc
    exact Unicode.isBlank_of_isWord hword
  have hrun : reference.run a some = (optional (char '.' ++ Identifier.simple)).run
      (a.furthest isWord) fun b =>
        (optional (blanks ++ allOf inLine)).run (b.close a.passed) some := by
    rw [reference, run_append, run_append, maybeBlanks, run_allOf hnothing hblank rfl,
      Attempt.take_nil, run_group, Identifier.run_of_digit hafter hd]
  have hsome : reference.run a some ≠ none := by
    rw [hrun]
    exact run_optional_ne_none (run_optional_ne_none (Option.some_ne_none _))
  obtain ⟨b, hb⟩ := Option.ne_none_iff_exists'.mp hsome
  refine ⟨b, hb, ?_⟩
  rw [hrun] at hb
  obtain ⟨c, hname, hb⟩ := run_eq_some hb
  calc a.passed
      < (a.furthest isWord).passed :=
        Attempt.passed_lt_furthest (Attempt.next?_eq_some.mpr ⟨d, rest, hafter, hword, rfl⟩)
    _ ≤ c.passed := hname.passed_le
    _ ≤ b.passed := (run_reaches hb).passed_le

theorem names_renumbered {list list' : Text} (h : Renumbered list list') :
    List.Forall₂ Renumbered (names list) (names list') := by
  rw [names, names, occursIn_alike steady_subquery h]
  split
  · exact .nil
  · rw [List.forall₂_map_left_iff, List.forall₂_map_right_iff]
    refine (h.splitOn rfl).imp fun element element' helement => ?_
    exact replaceAll_alike blind_reference (Or.inr takes_reference)
      (fun halike => halike.group 0) helement

theorem tables_renumbered {list list' : Text} (h : Renumbered list list') :
    List.Forall₂ Renumbered (tables list) (tables list') := by
  refine List.rel_filter (fun name name' hname => ?_) (names_renumbered h)
  have hletter : Text.hasLetter name = Text.hasLetter name' :=
    hname.any_eq fun c hc => not_ok_of_lacksDigits (by decide) hc
  exact iff_of_eq (congrArg (· = true) hletter)

end TableClause

namespace Extraction

/-! ### Passes over a statement with clauses -/

theorem steady_modifier : Steady modifier :=
  (steady_keywords (by decide)).append blind_blanks

theorem steady_lockOpening : Steady lockOpening :=
  steady_textStart.append blind_maybeBlanks |>.append (blind_keyword (by decide))
    |>.append blind_blanks

theorem steady_lockMode : Steady lockMode :=
  steady_blanks.append (blind_or (blind_append (blind_keyword (by decide))
    (blind_optional (blind_append blind_blanks (blind_keyword (by decide)))))
      (blind_keyword (by decide))) |>.append blind_maybeBlanks

theorem steady_escapedQuote : Steady escapedQuote :=
  (steady_char (by decide)).append (blind_one (by decide))

theorem steady_literal {quote : Char} (hquote : quote ∈ quotes) : Steady (literal quote) := by
  simp only [quotes, List.mem_cons, List.not_mem_nil, or_false] at hquote
  obtain rfl | rfl := hquote <;>
    exact (steady_char (by decide)).append (blind_allOf (by decide))
      |>.append (blind_char (by decide))

theorem steady_insertOpening : Steady insertOpening :=
  steady_textStart.append blind_maybeBlanks |>.append (blind_keywords (by decide))

theorem steady_leadingInto : Steady leadingInto :=
  steady_textStart.append blind_blanks |>.append (blind_keyword (by decide))

theorem steady_insertPrefix : Steady insertPrefix :=
  steady_textStart.append blind_maybeBlanks |>.append (blind_group (blind_keywords (by decide)))
    |>.append blind_blanks

theorem steady_loadOpening : Steady loadOpening :=
  steady_textStart.append blind_maybeBlanks |>.append (blind_keyword (by decide))

section

variable {t t' : Text} (h : Renumbered t t')

include h

theorem unlocked_renumbered : Renumbered (unlocked t) (unlocked t') := by
  have hplain := replaceAll_const_alike steady_modifier (.refl [' ']) h
  obtain ⟨hx, hx'⟩ | ⟨_, _, hx, hx', halike⟩ := rel_cases (find_alike steady_lockOpening hplain)
  · simpa only [unlocked, locked?, hx, hx', Option.map_none, withLocks] using hplain
  · simpa only [unlocked, locked?, hx, hx', Option.map_some, withLocks] using
      Renumbered.append (.refl _) (removeAll_alike steady_lockMode halike.stop.after)

theorem blankLiterals_renumbered : Renumbered (blankLiterals t) (blankLiterals t') :=
  replaceAll_const_alike (steady_literal (by decide)) (.refl ['?'])
    (replaceAll_const_alike (steady_literal (by decide)) (.refl ['?'])
      (removeAll_alike steady_escapedQuote h))

theorem spellInto_renumbered : Renumbered (spellInto t) (spellInto t') := by
  rw [spellInto, spellInto]
  obtain ⟨hx, hx'⟩ | ⟨_, _, hx, hx', halike⟩ := rel_cases (find_alike steady_insertOpening h)
  · rwa [hx, hx']
  · simp only [hx, hx', occursIn_alike steady_leadingInto halike.stop.after]
    split
    · exact h
    · exact replaceFirst_alike steady_insertPrefix
        (fun hverb => (hverb.group 0).append (.refl _)) h

end

theorem scanned_renumbered {t t' : Text} (h : Renumbered t t') :
    Renumbered (scanned t) (scanned t') :=
  spellInto_renumbered (blankLiterals_renumbered (unlocked_renumbered h))

theorem toList_renumbered {x x' : Option Text} (h : Option.Rel Renumbered x x') :
    List.Forall₂ Renumbered x.toList x'.toList := by
  cases h with
  | none => exact .nil
  | some hname => exact .cons hname .nil

theorem tables_ofClauses_renumbered {t t' : Text} (h : Renumbered t t') :
    List.Forall₂ Renumbered (ofClauses t).tables (ofClauses t').tables := by
  have hscanned := scanned_renumbered h
  rw [tables_ofClauses_eq, tables_ofClauses_eq, occursIn_alike steady_loadOpening hscanned]
  split
  · exact toList_renumbered (LoadTarget.ofStatement?_renumbered hscanned)
  · exact List.rel_flatMap (TableClause.lists_renumbered hscanned)
      fun list list' hlist => TableClause.tables_renumbered hlist

/-! ### Definitions by a query -/

theorem steady_existenceClause : Steady existenceClause :=
  (steady_keyword (by decide) (by decide)).append blind_blanks
    |>.append (blind_optional (blind_append (blind_keyword (by decide)) blind_blanks))
    |>.append (blind_keyword (by decide))

theorem steady_databaseBehind (verb : DefinitionVerb) : Steady (databaseBehind verb) :=
  (steady_keyword (by cases verb <;> decide) (by cases verb <;> decide)).append
    (blind_keyword (by decide)) |>.append blind_wordEdge

theorem steady_createSelect : Steady createSelect :=
  (steady_keyword (by decide) (by decide)).across_one (by decide) (by decide) rfl
    steady_wordEdge |>.append (blind_keyword (by decide)) |>.append blind_wordEdge

theorem steady_selectTail : Steady selectTail :=
  steady_wordEdge.append (blind_group
    (blind_append (blind_append (blind_keyword (by decide)) blind_wordEdge)
      (blind_someOf (by decide))))

theorem steady_tableName : Steady tableName :=
  (steady_keyword (by decide) (by decide)).append blind_blanks
    |>.append (blind_group Identifier.blind_pattern)

theorem definingQuery?_renumbered {t t' : Text} (h : Renumbered t t') :
    Option.Rel Renumbered (definingQuery? t) (definingQuery? t') := by
  rw [definingQuery?, definingQuery?, occursIn_alike steady_createSelect h]
  split
  · exact group_alike (find_alike steady_selectTail h) 0
  · exact .none

/-! ### Tables of any statement -/

theorem tables_ofStatement_renumbered {t t' : Text} (h : Renumbered t t') :
    List.Forall₂ Renumbered (ofStatement t).tables (ofStatement t').tables := by
  induction hlength : t.length using Nat.strongRecOn generalizing t t' with
  | ind n ih =>
    have hverb := DefinitionVerb.ofStatement?_renumbered h
    cases hdefinition : DefinitionVerb.ofStatement? t with
    | none =>
        rw [ofStatement_of_none hdefinition, ofStatement_of_none (hverb ▸ hdefinition)]
        exact tables_ofClauses_renumbered h
    | some verb =>
        have hplain := removeAll_alike steady_existenceClause h
        rw [ofStatement_of_verb hdefinition, ofStatement_of_verb (hverb ▸ hdefinition),
          ofDefinition, ofDefinition, occursIn_alike (steady_databaseBehind verb) hplain]
        split
        · exact .nil
        · obtain ⟨hx, hx'⟩ | ⟨query, query', hx, hx', hquery⟩ :=
            rel_cases (definingQuery?_renumbered hplain)
          · rw [hx, hx']
            exact toList_renumbered (group_alike (find_alike steady_tableName hplain) 0)
          · rw [hx, hx']
            exact ih _ (hlength ▸ length_definingQuery? hdefinition hx) hquery rfl

end Extraction
end QueryDigest
