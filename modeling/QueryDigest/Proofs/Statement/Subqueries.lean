import QueryDigest.Proofs.Statement.PlainNames
import QueryDigest.Proofs.Statement.StarSelects
import QueryDigest.Proofs.Statement.Verbs
import QueryDigest.Proofs.Unicode.LetterCase

/-!
Subqueries. The search for clauses knows nothing of nesting: a clause in front of a subquery takes
the parenthesis and the SELECT for a name, which is dropped, and the clauses of the subquery are
found behind them. So the tables of nested queries are found at every depth, from left to right.
-/

namespace QueryDigest.Nested

open Pattern TableClause
open Unicode (foldLetter isBlank isWord)

/-! ### Nested queries -/

/-- The words of the grammar and those that open a clause, which no name is. -/
def reserved : List Text :=
  ["SELECT", "FROM", "JOIN", "INTO", "UPDATE", "AS"].map String.toList

/-- The modifiers, which no name ends with. -/
def modifiers : List Text :=
  ["LOW_PRIORITY", "IGNORE", "STRAIGHT_JOIN", "DELAYED"].map String.toList

/-- A name of a table or an alias: a word with a letter, in any case none of the words above. -/
structure Name where
  text : Text
  plain : ∀ c ∈ text, c.isAlphanum = true ∨ c = '_'
  letter : text.hasLetter = true
  unreserved : text.map Char.toUpper ∉ reserved
  unmodified : ∀ m ∈ modifiers, ¬ m <:+ text.map Char.toUpper

mutual

inductive Query where
  | selectFrom (sources : Sources)

inductive Sources where
  | last (source : Source)
  | join (source : Source) (others : Sources)

inductive Source where
  | table (name : Name)
  | renamed (name label : Name)
  | subquery (query : Query) (label : Name)

end

mutual

def Query.text : Query → Text
  | .selectFrom sources => "SELECT * FROM ".toList ++ sources.text

def Sources.text : Sources → Text
  | .last source => source.text
  | .join source others => source.text ++ " JOIN ".toList ++ others.text

def Source.text : Source → Text
  | .table name => name.text
  | .renamed name label => name.text ++ " AS ".toList ++ label.text
  | .subquery query label => "(".toList ++ query.text ++ ") AS ".toList ++ label.text

end

mutual

/-- The names of the tables that a query reads, from left to right. -/
def Query.leaves : Query → List Text
  | .selectFrom sources => sources.leaves

def Sources.leaves : Sources → List Text
  | .last source => source.leaves
  | .join source others => source.leaves ++ others.leaves

def Source.leaves : Source → List Text
  | .table name => [name.text]
  | .renamed name _ => [name.text]
  | .subquery query _ => query.leaves

end

/-! ### Names -/

namespace Name

variable (name : Name)

theorem isPlain : Text.Plain name.text :=
  ⟨name.plain, name.letter⟩

theorem isWord_text : ∀ c ∈ name.text, isWord c = true :=
  name.isPlain.word

theorem ne_nil : name.text ≠ [] :=
  name.isPlain.ne_nil

theorem fold_text : name.text.map foldLetter = name.text.map Char.toUpper :=
  name.isPlain.fold

theorem fold_ne {k : Text} (hk : k ∈ reserved) : name.text.map foldLetter ≠ k.map foldLetter := by
  have hfold : ∀ k ∈ reserved, k.map foldLetter = k := by decide
  rw [hfold k hk, name.fold_text]
  rintro rfl
  exact name.unreserved hk

theorem tables_text : tables name.text = [name.text] := by
  rw [tables, names_word name.ne_nil name.isWord_text (name.fold_ne (by decide))]
  simp [name.letter]

end Name

/-! ### The passes in front of the search -/

/-- No modifier stands in a text as the end of a word. -/
def Unmodified (t : Text) : Prop :=
  ∀ u m v, t = u ++ m ++ v → Classification.Reads modifiers m → isWordAt v.head? = true

/-- A text that the passes in front of the search for clauses leave as it is. -/
structure Tame (t : Text) : Prop where
  plain : ∀ c ∈ t, isWord c = true ∨ c ∈ " *()".toList
  unmodified : Unmodified t

theorem isWord_of_reads_modifiers {m : Text} (hm : Classification.Reads modifiers m) :
    m ≠ [] ∧ ∀ c ∈ m, isWord c = true := by
  have hmodifiers : ∀ k ∈ modifiers, k ≠ [] ∧ k.all isWord = true := by decide
  obtain ⟨hne, hword⟩ := hmodifiers _ hm
  refine ⟨List.map_eq_nil_iff.not.mp hne, ?_⟩
  intro c hc
  rw [← Unicode.isWord_foldLetter]
  exact List.all_eq_true.mp hword _ (List.mem_map_of_mem hc)

theorem Unmodified.nil : Unmodified [] := by
  intro u m v hsplit hm
  have hnil := (List.append_eq_nil_iff.mp hsplit.symm).1
  exact absurd (List.append_eq_nil_iff.mp hnil).2 (isWord_of_reads_modifiers hm).1

theorem Unmodified.word {w : Text} (hword : ∀ c ∈ w, isWord c = true)
    (hend : ∀ m ∈ modifiers, ¬ m <:+ w.map foldLetter) : Unmodified w := by
  rintro u m v rfl hm
  cases v with
  | nil =>
      refine absurd ?_ (hend _ hm)
      rw [List.append_nil, List.map_append]
      exact List.suffix_append _ _
  | cons c v => exact hword c (List.mem_append_right _ List.mem_cons_self)

theorem Unmodified.mark {t t' : Text} (ht : Unmodified t) (ht' : Unmodified t') {c : Char}
    (hc : isWord c = false) : Unmodified (t ++ c :: t') := by
  intro u m v hsplit hm
  have hcm : c ∉ m := fun hmem =>
    absurd ((isWord_of_reads_modifiers hm).2 c hmem) (Bool.eq_false_iff.mp hc)
  rw [List.append_assoc] at hsplit
  obtain ⟨x, hu, hv⟩ | ⟨x, hu, hv⟩ := List.append_eq_append_iff.mp hsplit
  · cases x with
    | nil =>
        obtain ⟨d, m, rfl⟩ := List.exists_cons_of_ne_nil (isWord_of_reads_modifiers hm).1
        rw [List.nil_append, List.cons_append] at hv
        exact absurd ((List.cons.inj hv).1 ▸ List.mem_cons_self) hcm
    | cons d x =>
        refine ht' x m v ?_ hm
        rw [List.append_assoc]
        exact (List.cons.inj hv).2
  · obtain ⟨y, hx, hv⟩ | ⟨y, hm', hv⟩ := List.append_eq_append_iff.mp hv
    · have hedge := ht u m y (by rw [hu, hx, List.append_assoc]) hm
      cases y with
      | nil => cases hedge
      | cons d y =>
          rw [hv]
          exact hedge
    · cases y with
      | nil =>
          have hedge := ht u m [] (by rw [hu, hm']; simp) hm
          cases hedge
      | cons d y =>
          rw [List.cons_append] at hv
          refine absurd ?_ hcm
          rw [hm', (List.cons.inj hv).1]
          exact List.mem_append_right x List.mem_cons_self

theorem Tame.nil : Tame [] :=
  ⟨List.forall_mem_nil _, .nil⟩

theorem Tame.word {w : Text} (hword : ∀ c ∈ w, isWord c = true)
    (hend : ∀ m ∈ modifiers, ¬ m <:+ w.map foldLetter) : Tame w :=
  ⟨fun c hc => Or.inl (hword c hc), .word hword hend⟩

theorem Tame.mark {t t' : Text} (ht : Tame t) (ht' : Tame t') {c : Char}
    (hc : c ∈ " *()".toList) : Tame (t ++ c :: t') where
  plain := List.forall_mem_append.mpr ⟨ht.plain, List.forall_mem_cons.mpr ⟨Or.inr hc, ht'.plain⟩⟩
  unmodified := by
    have hmarks : ∀ c ∈ " *()".toList, isWord c = false :=
      List.all_iff_forall_prop.mp (by decide)
    exact ht.unmodified.mark ht'.unmodified (hmarks c hc)

/-! ### Tame texts -/

theorem modifier_eq : Extraction.modifier = keywords modifiers ++ blanks :=
  rfl

/-- What reads as a modifier with white space behind it. -/
theorem modifier_opens {before after : Text} {h : Hit}
    (hmatch : Extraction.modifier.matchAt? ⟨before, after⟩ = some h) :
    ∃ m b rest, after = m ++ b :: rest ∧ Classification.Reads modifiers m ∧ isBlank b = true := by
  obtain ⟨a, hrun, _⟩ := matchAt?_eq_some hmatch
  rw [modifier_eq, run_append] at hrun
  obtain ⟨k, hk, m, rest, hafter, hm, hblanks⟩ := run_keywords_eq_some hrun
  rw [blanks, someOf, run_append, run_one, Option.bind_eq_some_iff] at hblanks
  obtain ⟨_, hnext, _⟩ := hblanks
  obtain ⟨b, more, hrest, hb, _⟩ := Attempt.next?_eq_some.mp hnext
  have hfold : ∀ k ∈ modifiers, k.map foldLetter = k := by decide
  refine ⟨m, b, more, hrest ▸ hafter, ?_, hb⟩
  rw [Classification.Reads, hm, hfold k hk]
  exact hk

theorem Unmodified.replaceAll_modifier {t : Text} (ht : Unmodified t) :
    Extraction.modifier.replaceAll (fun _ => [' ']) t = t := by
  apply replaceAll_of_no_match
  intro u c v hsplit
  cases hmatch : Extraction.modifier.matchAt? ⟨u.reverse, c :: v⟩ with
  | none => rfl
  | some h =>
      obtain ⟨m, b, rest, hafter, hm, hb⟩ := modifier_opens hmatch
      have hedge : isWord b = true :=
        ht u m (b :: rest) (by rw [hsplit, hafter, List.append_assoc]) hm
      rw [Unicode.isWord_of_isBlank hb] at hedge
      cases hedge

theorem Tame.not_mem {t : Text} (ht : Tame t) {x : Char} (hword : isWord x = false)
    (hmark : x ∉ " *()".toList) : x ∉ t := by
  intro hx
  obtain hx | hx := ht.plain x hx
  · rw [hword] at hx
    cases hx
  · exact hmark hx

theorem Tame.blankLiterals {t : Text} (ht : Tame t) : Extraction.blankLiterals t = t := by
  have hmarks : ∀ c ∈ " *()".toList, isBlank c = true ∨ c ∈ "*(),=".toList :=
    List.all_iff_forall_prop.mp (by decide)
  exact Extraction.blankLiterals_of_chars fun c hc => (ht.plain c hc).imp_right (hmarks c)

theorem Name.tame (name : Name) : Tame name.text :=
  .word name.isWord_text (name.fold_text ▸ name.unmodified)

theorem tame_keyword : ∀ k ∈ reserved, Tame k := by
  have hword : ∀ k ∈ reserved, k.all isWord = true := by decide
  have hend : ∀ k ∈ reserved, ∀ m ∈ modifiers, ¬ m <:+ k.map foldLetter := by decide
  exact fun k hk => .word (List.all_eq_true.mp (hword k hk)) (hend k hk)

theorem Tame.space {t t' : Text} (ht : Tame t) (ht' : Tame t') : Tame (t ++ ' ' :: t') :=
  ht.mark ht' (by decide)

/-- What stands behind SELECT and a space. -/
def starFrom (sources : Sources) : Text :=
  '*' :: ' ' :: ("FROM".toList ++ ' ' :: sources.text)

/-- What stands behind a source that has a label. -/
def asLabel (label : Name) : Text :=
  "AS".toList ++ ' ' :: label.text

theorem Sources.text_join (source : Source) (others : Sources) : (Sources.join source others).text =
    source.text ++ ' ' :: ("JOIN".toList ++ ' ' :: others.text) := by
  simp [Sources.text]

theorem Source.text_renamed (name label : Name) : (Source.renamed name label).text =
    name.text ++ ' ' :: asLabel label := by
  simp [Source.text, asLabel]

theorem Source.text_subquery (query : Query) (label : Name) : (Source.subquery query label).text =
    '(' :: (query.text ++ ')' :: ' ' :: asLabel label) := by
  simp [Source.text, asLabel]

theorem Tame.starFrom {sources : Sources} (h : Tame sources.text) : Tame (starFrom sources) :=
  have hfrom := (tame_keyword "FROM".toList (by decide)).space h
  Tame.nil.mark (Tame.nil.space hfrom) (c := '*') (by decide)

theorem tame_asLabel (label : Name) : Tame (asLabel label) :=
  (tame_keyword "AS".toList (by decide)).space label.tame

mutual

theorem Query.tame : ∀ q : Query, Tame q.text
  | .selectFrom sources => (tame_keyword "SELECT".toList (by decide)).space sources.tame.starFrom

theorem Sources.tame : ∀ s : Sources, Tame s.text
  | .last source => source.tame
  | .join source others => by
      rw [Sources.text_join]
      exact source.tame.space ((tame_keyword "JOIN".toList (by decide)).space others.tame)

theorem Source.tame : ∀ s : Source, Tame s.text
  | .table name => name.tame
  | .renamed name label => by
      rw [Source.text_renamed]
      exact name.tame.space (tame_asLabel label)
  | .subquery query label => by
      have hlabel := Tame.nil.space (tame_asLabel label)
      rw [Source.text_subquery]
      exact Tame.nil.mark (query.tame.mark hlabel (by decide)) (by decide)

end

/-! ### The search through a query -/

mutual

/-- The lists of names that the clauses of a query are found with: a name, or the SELECT of a
subquery and then the lists in it. -/
def Query.lists : Query → List Text
  | .selectFrom sources => sources.lists

def Sources.lists : Sources → List Text
  | .last source => source.lists
  | .join source others => source.lists ++ others.lists

def Source.lists : Source → List Text
  | .table name => [name.text]
  | .renamed name _ => [name.text]
  | .subquery query _ => "SELECT".toList :: query.lists

end

theorem endsList_of_tame {t rest : Text} (ht : Tame t) (hrest : EndsList rest) {c : Char}
    (hc : c ∈ " )".toList) : EndsList (c :: t ++ rest) := by
  have hmarks : ∀ c ∈ " )".toList, isWord c = false ∧ c ≠ '.' ∧ c ≠ ',' :=
    List.all_iff_forall_prop.mp (by decide)
  obtain ⟨hword, hdot, hcomma⟩ := hmarks c hc
  refine ⟨hword, fun h => hdot (Option.some.inj h), ?_⟩
  simp [hcomma.symm, ht.not_mem (x := ',') (by decide) (by decide), hrest.comma]

/-- What the search finds in a text behind an anchor and a space. -/
def Found (t : Text) (found : List Text) : Prop :=
  ∀ anchor ∈ ["FROM".toList, "JOIN".toList], ∀ before rest, isWordAt before.head? = false →
    EndsList rest → Yields before (anchor ++ ' ' :: t) rest found

theorem yields_anchor {anchor gap w before rest : Text}
    (hanchor : anchor ∈ ["FROM".toList, "JOIN".toList]) (hgap : gap ∈ [[' '], [' ', '(']])
    (hne : w ≠ []) (hword : ∀ c ∈ w, isWord c = true) (hbefore : isWordAt before.head? = false)
    (hrest : EndsList rest) : Yields before (anchor ++ (gap ++ w)) rest [w] := by
  have hanchors : ∀ k ∈ ["FROM".toList, "JOIN".toList],
      k ∈ anchors ∧ k.map foldLetter ≠ "UPDATE".toList.map foldLetter := by decide
  refine yields_clause ⟨⟨anchor, (hanchors anchor hanchor).1, rfl⟩, ⟨[' '], ?_, ?_, ?_⟩, hne, hword,
    hrest⟩ hbefore (hanchors anchor hanchor).2
  · decide
  · exact List.all_eq_true.mp (by decide)
  · simpa using hgap

theorem yields_asLabel (label : Name) (before : Text) {rest : Text} (hrest : EndsList rest) :
    Yields before (' ' :: asLabel label) rest [] :=
  @yields_label (.long label.text) ⟨label.ne_nil, label.isWord_text⟩
    (fun k hk => label.fold_ne (by revert k; decide)) before rest hrest.edge

theorem Name.found (name : Name) : Found name.text [name.text] := by
  intro anchor hanchor before rest hbefore hrest
  have hname : Yields before (anchor ++ ([' '] ++ name.text)) rest [name.text] :=
    yields_anchor hanchor (by decide) name.ne_nil name.isWord_text hbefore hrest
  exact hname

mutual

theorem Query.found : ∀ q : Query, ∃ t, q.text = "SELECT".toList ++ ' ' :: t ∧ Tame t ∧
    ∀ {before rest : Text}, EndsList rest → Yields before (' ' :: t) rest q.lists
  | .selectFrom sources => by
      refine ⟨starFrom sources, rfl, sources.tame.starFrom, ?_⟩
      intro before rest hrest
      exact .mark (by decide) (.mark (by decide) (.mark (by decide)
        (sources.found _ (by decide) _ _ rfl hrest)))

theorem Sources.found : ∀ s : Sources, Found s.text s.lists
  | .last source => source.found
  | .join source others => by
      intro anchor hanchor before rest hbefore hrest
      have hends : EndsList (' ' :: ("JOIN".toList ++ ' ' :: others.text) ++ rest) :=
        endsList_of_tame ((tame_keyword _ (by decide)).space others.tame) hrest (by decide)
      have hothers : ∀ before, Yields before (' ' :: ("JOIN".toList ++ ' ' :: others.text)) rest
          others.lists := fun before =>
        .mark (by decide) (others.found _ (by decide) (' ' :: before) rest rfl hrest)
      have hall := (source.found _ hanchor before _ hbefore hends).append (hothers _)
      rwa [List.append_assoc, List.cons_append, ← Sources.text_join] at hall

theorem Source.found : ∀ s : Source, Found s.text s.lists
  | .table name => name.found
  | .renamed name label => by
      intro anchor hanchor before rest hbefore hrest
      have hends : EndsList (' ' :: asLabel label ++ rest) :=
        endsList_of_tame (tame_asLabel label) hrest (by decide)
      have hname := name.found _ hanchor before _ hbefore hends
      have hall := hname.append (yields_asLabel label _ hrest)
      rwa [List.append_assoc, List.cons_append, ← Source.text_renamed] at hall
  | .subquery query label => by
      intro anchor hanchor before rest hbefore hrest
      obtain ⟨t, htext, ht, hquery⟩ := query.found
      have hends : EndsList (')' :: (' ' :: asLabel label) ++ rest) :=
        endsList_of_tame (Tame.nil.space (tame_asLabel label)) hrest (by decide)
      have hlabel : ∀ before, Yields before (')' :: ' ' :: asLabel label) rest [] := fun before =>
        .mark (by decide) (yields_asLabel label _ hrest)
      have hselect : Yields before (anchor ++ ([' ', '('] ++ "SELECT".toList))
          (' ' :: t ++ (')' :: (' ' :: asLabel label)) ++ rest) ["SELECT".toList] :=
        yields_anchor hanchor (by decide) (by decide) (List.all_eq_true.mp (by decide)) hbefore
          (List.append_assoc _ _ rest ▸ endsList_of_tame ht hends (by decide))
      have hall := hselect.append ((hquery hends).append (hlabel _))
      rw [List.append_nil] at hall
      rw [Source.text_subquery, htext, Source.lists]
      simpa using hall

end

mutual

theorem Query.tables_lists : ∀ q : Query, q.lists.flatMap tables = q.leaves
  | .selectFrom sources => sources.tables_lists

theorem Sources.tables_lists : ∀ s : Sources, s.lists.flatMap tables = s.leaves
  | .last source => source.tables_lists
  | .join source others => by
      rw [Sources.lists, List.flatMap_append, source.tables_lists, others.tables_lists,
        Sources.leaves]

theorem Source.tables_lists : ∀ s : Source, s.lists.flatMap tables = s.leaves
  | .table name => by
      rw [Source.lists, List.flatMap_singleton, name.tables_text, Source.leaves]
  | .renamed name _ => by
      rw [Source.lists, List.flatMap_singleton, name.tables_text, Source.leaves]
  | .subquery query _ => by
      have hselect : tables "SELECT".toList = [] := by decide
      rw [Source.lists, List.flatMap_cons, hselect, List.nil_append, query.tables_lists,
        Source.leaves]

end

/-! ### The tables of a query -/

/-- A shape bound to the start of a text does not see what a query reads. -/
theorem find_query {p : Pattern} (hp : p.Anchored) (hnear : p.Near)
    (havoid : p.avoids ['*'] = true) (hselect : p.occursIn ("SELECT ".toList ++ ['*']) = false)
    (q : Query) : p.find q.text = none := by
  obtain ⟨sources⟩ := q
  exact Extraction.find_selectStar hp hnear havoid hselect
    (' ' :: ("FROM".toList ++ ' ' :: sources.text))

theorem ofStatement?_query (q : Query) : DefinitionVerb.ofStatement? q.text = none := by
  obtain ⟨sources⟩ := q
  exact Extraction.ofStatement?_selectStar (' ' :: ("FROM".toList ++ ' ' :: sources.text))

theorem scanned_query (q : Query) : Extraction.scanned q.text = q.text := by
  obtain ⟨sources⟩ := q
  exact Extraction.scanned_selectStar (t := ' ' :: ("FROM".toList ++ ' ' :: sources.text))
    (Query.selectFrom sources).tame.unmodified.replaceAll_modifier
    (Query.selectFrom sources).tame.blankLiterals

theorem lists_query (q : Query) : TableClause.lists q.text = q.lists := by
  obtain ⟨t, htext, _, hquery⟩ := q.found
  have hselect : Yields [] "SELECT".toList (' ' :: t ++ []) [] :=
    yields_word (List.all_eq_true.mp (by decide)) (by decide) [] rfl
  rw [htext]
  exact (hselect.append (hquery endsList_nil)).lists

/-- The tables of a query are the names of the tables that it and its subqueries read, at every
depth and from left to right. -/
theorem tablesOf_query (q : Query) :
    tablesOf q.text = q.leaves.eraseDups ∧ ∀ t, t ∈ tablesOf q.text ↔ t ∈ q.leaves := by
  have hload : Extraction.loadOpening.find q.text = none := by
    apply find_query ((anchored_textStart.append maybeBlanks).append _)
    · simp
    · decide
    · decide +kernel
  have htables : tablesOf q.text = q.leaves.eraseDups := by
    rw [tablesOf, Extraction.ofStatement, ofStatement?_query, Extraction.tables_ofClauses_eq,
      scanned_query, occursIn, hload, lists_query]
    exact congrArg List.eraseDups q.tables_lists
  refine ⟨htables, fun t => ?_⟩
  rw [htables, List.mem_eraseDups]

example : ∃ q : Query, q.text = "SELECT * FROM (SELECT * FROM u1 JOIN t) AS x JOIN u1".toList ∧
    tablesOf q.text = ["u1".toList, "t".toList] := by
  let u1 : Name :=
    ⟨"u1".toList, List.all_iff_forall_prop.mp (by decide), by decide, by decide, by decide⟩
  let t : Name :=
    ⟨"t".toList, List.all_iff_forall_prop.mp (by decide), by decide, by decide, by decide⟩
  let x : Name :=
    ⟨"x".toList, List.all_iff_forall_prop.mp (by decide), by decide, by decide, by decide⟩
  let inner : Query := .selectFrom (.join (.table u1) (.last (.table t)))
  refine ⟨.selectFrom (.join (.subquery inner x) (.last (.table u1))), by decide, by decide +kernel⟩

end QueryDigest.Nested
