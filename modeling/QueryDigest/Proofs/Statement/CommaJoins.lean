import QueryDigest.Proofs.Statement.Modifiers

/-!
Queries over tables joined by commas. Their names are found in the order they are written in, and
just the names in front of white space that end with a modifier lose it.
-/

namespace QueryDigest.CommaJoin

open Pattern TableClause
open Extraction (clip modifier selectStar turns_clip_append turns_marks turns_word)
open Nested (modifiers)
open Unicode (foldLetter isBlank isWord)

/-! ### The queries -/

/-- The words that no name and no alias is. -/
def reserved : List Text :=
  Nested.reserved ++ modifiers

structure Reference where
  name : PlainName reserved
  label : Label (PlainName reserved)

def Reference.text (r : Reference) : Text :=
  r.name.text ++ (r.label.map PlainName.text).text

def query (references : List Reference) : Text :=
  "SELECT * FROM ".toList ++
    (Text.join ", ".toList (references.map Reference.text) ++ " WHERE id = 1".toList)

/-- The names of the tables, in the order they are written in. -/
def tableNames (references : List Reference) : List Text :=
  references.map fun r => r.name.text

/-- The names with white space behind them: the last one and those with an alias. -/
def spaced : List Reference → List Text
  | [] => []
  | [r] => [r.name.text]
  | r :: s :: more =>
    match r.label with
    | .none => spaced (s :: more)
    | _ => r.name.text :: spaced (s :: more)

/-! ### What is read -/

/-- A name as it is read in front of a comma, or of the alias in front of one. -/
def nameRead (r : Reference) : Text :=
  match r.label with
  | .none => r.name.text
  | _ => clip r.name.text

/-- The list as it is read. -/
def entries (gap : Text) : List Reference → List Entry
  | [] => []
  | [r] => [⟨gap, clip r.name.text, .none⟩]
  | r :: s :: more =>
    ⟨gap, nameRead r, r.label.map PlainName.text⟩ :: entries [' '] (s :: more)

/-- The alias behind the last name as it is read. -/
def lastLabel : List Reference → Label Text
  | [] => .none
  | [r] => r.label.map fun name => clip name.text
  | _ :: s :: more => lastLabel (s :: more)

def namesRead (references : List Reference) : List Text :=
  (entries [] references).map Entry.name

theorem wordy_clip (name : PlainName reserved) : Wordy (clip name.text) := by
  have hname : name.text.map foldLetter ∉ modifiers := fun hm =>
    name.fold_ne (List.mem_append_right _ hm) rfl
  exact ⟨Extraction.clip_ne_nil name.plain.ne_nil hname,
    fun c hc => name.plain.word c (Extraction.clip_subset _ hc)⟩

theorem wordy_nameRead (r : Reference) : Wordy (nameRead r) := by
  rw [nameRead]
  split
  · exact r.name.plain.wordy
  · exact wordy_clip r.name

theorem readable_entries {gap : Text} (hgap : ∀ c ∈ gap, isBlank c = true)
    (references : List Reference) : ∀ e ∈ entries gap references, e.Readable := by
  induction references generalizing gap with
  | nil => exact List.forall_mem_nil _
  | cons r others ih =>
      cases others with
      | nil => exact List.forall_mem_singleton.mpr ⟨hgap, wordy_clip r.name, trivial⟩
      | cons s more =>
          have hlabel : (r.label.map PlainName.text).Holds Wordy :=
            Label.holds_map (fun name => name.plain.wordy) r.label
          exact List.forall_mem_cons.mpr ⟨⟨hgap, wordy_nameRead r, hlabel⟩,
            ih (List.forall_mem_singleton.mpr rfl)⟩

theorem entries_cons (gap : Text) (r : Reference) (others : List Reference) :
    ∃ name label more, entries gap (r :: others) = ⟨gap, name, label⟩ :: more := by
  cases others <;> exact ⟨_, _, _, rfl⟩

theorem row_entries (gap : Text) (r : Reference) (others : List Reference) :
    row (entries gap (r :: others)) = gap ++ row (entries [] (r :: others)) := by
  cases others <;> exact row_gap gap _ _ _

theorem wordy_lastLabel (references : List Reference) : (lastLabel references).Holds Wordy := by
  induction references with
  | nil => trivial
  | cons r others ih =>
      cases others with
      | nil => exact Label.holds_map wordy_clip r.label
      | cons s more => exact ih

/-! ### The removal of modifiers -/

/-- In front of a comma, a name loses the modifier that it ends with if it has an alias. -/
theorem turns_comma (r : Reference) (before rest : Text) :
    Turns modifier [' '] before r.text (',' :: rest)
      (nameRead r ++ (r.label.map PlainName.text).text) := by
  have hcomma : ∀ c, (',' :: rest).head? = some c → isBlank c = false := by
    rintro _ ⟨⟩
    decide
  have hlast : ∀ (name : PlainName reserved) before,
      Turns modifier [' '] before name.text (',' :: rest) name.text := fun name before =>
    turns_word name.plain.word rfl (Or.inr hcomma)
  have hname := r.name.plain.word
  rw [Reference.text, nameRead]
  cases r.label with
  | none => simpa [Label.map, Label.text] using hlast r.name before
  | short name => exact turns_clip_append hname name.plain.head (hlast name) before
  | long name =>
      have hlabel := turns_clip_append wordy_as.2 name.plain.head (hlast name)
      exact turns_clip_append hname rfl hlabel before

/-- In front of white space, the last name and its alias lose the modifiers they end with. -/
theorem turns_last (r : Reference) {t rest : Text} (hnext : isWordAt t.head? = true)
    (ht : ∀ before, Turns modifier [' '] before t rest t) (before : Text) :
    Turns modifier [' '] before (r.text ++ ' ' :: t) rest
      (clip r.name.text ++ ((lastLabel [r]).text ++ ' ' :: t)) := by
  have hname := r.name.plain.word
  have hlabel : ∀ (name : PlainName reserved) before, Turns modifier [' '] before
      (name.text ++ ' ' :: t) rest (clip name.text ++ ' ' :: t) := fun name =>
    turns_clip_append name.plain.word hnext ht
  have hhead : ∀ name : PlainName reserved, isWordAt (name.text ++ ' ' :: t).head? = true :=
    fun name => Text.isWordAt_head? name.plain.ne_nil name.plain.word _
  rw [Reference.text, lastLabel, List.append_assoc]
  cases r.label with
  | none => exact turns_clip_append hname hnext ht before
  | short name => exact turns_clip_append hname (hhead name) (hlabel name) before
  | long name =>
      have has := turns_clip_append wordy_as.2 (hhead name) (hlabel name)
      exact turns_clip_append hname rfl has before

theorem turns_references (r : Reference) (others : List Reference) {t rest : Text}
    (hnext : isWordAt t.head? = true)
    (ht : ∀ before, Turns modifier [' '] before t rest t) (before : Text) :
    Turns modifier [' '] before
      (Text.join ", ".toList ((r :: others).map Reference.text) ++ ' ' :: t) rest
      (row (entries [] (r :: others)) ++ ((lastLabel (r :: others)).text ++ ' ' :: t)) := by
  induction others generalizing r before with
  | nil =>
      have hlast := turns_last r hnext ht before
      have hrow : row (entries [] [r]) = clip r.name.text := row_single _
      rwa [List.map_singleton, Text.join, List.intercalate_singleton, hrow]
  | cons s more ih =>
      -- A comma follows, so that only an alias can put white space behind the name.
      have hsplit : Text.join ", ".toList ((r :: s :: more).map Reference.text) =
          r.text ++ (", ".toList ++ Text.join ", ".toList ((s :: more).map Reference.text)) :=
        Text.join_cons (List.cons_ne_nil _ _) _
      have hrow : row (entries [] (r :: s :: more)) =
          (nameRead r ++ (r.label.map PlainName.text).text) ++
            (", ".toList ++ row (entries [] (s :: more))) := by
        obtain ⟨name, label, es, hes⟩ := entries_cons [' '] s more
        rw [entries, hes, row_cons_cons, ← hes, row_entries]
        rfl
      have hothers := fun before => (turns_marks (u := ", ".toList) (by decide) before _).append
        (ih s _)
      have hall := (turns_comma r before _).append (hothers _)
      rw [hsplit, hrow]
      simpa [lastLabel] using hall

/-- The query as the clauses are looked for in it. -/
def behindColumns (references : List Reference) : Text :=
  ' ' :: "FROM ".toList ++
    (row (entries [] references) ++ ((lastLabel references).text ++ " WHERE id = 1".toList))

/-- The query as it is written, behind the columns. -/
def written (references : List Reference) : Text :=
  ' ' :: "FROM ".toList ++
    (Text.join ", ".toList (references.map Reference.text) ++ " WHERE id = 1".toList)

theorem query_eq (references : List Reference) :
    query references = selectStar (written references) :=
  rfl

theorem replaceAll_query (r : Reference) (others : List Reference) :
    modifier.replaceAll (fun _ => [' ']) (selectStar (written (r :: others))) =
      selectStar (behindColumns (r :: others)) := by
  have hword : ∀ w ∈ ["SELECT".toList, "FROM".toList], (∀ c ∈ w, isWord c = true) ∧
      ∀ m ∈ modifiers, ¬ m <:+ w.map foldLetter := by decide
  have hkeyword : ∀ w ∈ ["SELECT".toList, "FROM".toList], ∀ before rest,
      Turns modifier [' '] before w (' ' :: rest) w := fun w hw before rest =>
    turns_word (hword w hw).1 rfl (Or.inl (hword w hw).2)
  have hfront : ∀ rest, Turns modifier [' '] []
      ("SELECT".toList ++ (" * ".toList ++ ("FROM".toList ++ [' ']))) rest
      ("SELECT".toList ++ (" * ".toList ++ ("FROM".toList ++ [' ']))) := fun rest =>
    (hkeyword _ (by decide) [] _).append ((turns_marks (by decide) _ _).append
      ((hkeyword _ (by decide) _ _).append (turns_marks (by decide) _ rest)))
  have hend : ∀ before, Turns modifier [' '] before "WHERE id = 1".toList []
      "WHERE id = 1".toList := fun _ => rfl
  exact ((hfront _).append (turns_references r others rfl hend _)).replaceAll

theorem blankLiterals_query (references : List Reference) :
    Extraction.blankLiterals (selectStar (behindColumns references)) =
      selectStar (behindColumns references) := by
  have hfixed : ∀ u ∈ ["SELECT * FROM ".toList, " WHERE id = 1".toList],
      ∀ c ∈ u, isWord c = true ∨ isBlank c = true ∨ c ∈ "*(),=".toList := by decide
  have hlist := chars_list (readable_entries (List.forall_mem_nil _) references)
    (wordy_lastLabel references)
  have hall := List.forall_mem_append.mpr ⟨hfixed "SELECT * FROM ".toList (by decide),
    List.forall_mem_append.mpr ⟨hlist, hfixed " WHERE id = 1".toList (by decide)⟩⟩
  rw [List.append_assoc] at hall
  exact Extraction.blankLiterals_of_chars hall

theorem lists_query (r : Reference) (others : List Reference)
    (hlast : (lastLabel (r :: others)).Holds NoAnchor) :
    lists (selectStar (behindColumns (r :: others))) = [row (entries [] (r :: others))] := by
  have htail : ∀ before, Yields before " WHERE id = 1".toList [] [] := fun before =>
    .mark (t := "WHERE id = 1".toList) rfl rfl
  have hends : EndsList (" WHERE id = 1".toList ++ []) := ⟨rfl, by decide, by decide⟩
  apply Extraction.lists_selectStar
  intro before hbefore
  have hrow := yields_row (readable_entries (List.forall_mem_nil _) (r :: others))
    (by cases others <;> rfl) (wordy_lastLabel _) hlast hbefore hends
  have hall := hrow.append (htail _)
  simpa using hall

/-! ### The tables of a query -/

theorem listed_tableNames (references : List Reference) :
    listed (tableNames references) = tableNames references :=
  listed_eq_self (List.forall_mem_map.mpr fun r _ => r.name.plain.letter)
    (List.forall_mem_map.mpr fun r _ => r.name.fold_ne (by decide))

theorem clip_name {name : PlainName reserved}
    (h : ∀ m ∈ modifiers, ¬ m <:+ name.text.map Char.toUpper) : clip name.text = name.text :=
  Extraction.clip_eq_self (name.plain.fold ▸ h)

theorem namesRead_eq_tableNames {references : List Reference}
    (h : ∀ w ∈ spaced references, ∀ m ∈ modifiers, ¬ m <:+ w.map Char.toUpper) :
    namesRead references = tableNames references := by
  rw [namesRead]
  generalize ([] : Text) = gap
  induction references generalizing gap with
  | nil => rfl
  | cons r others ih =>
      cases others with
      | nil => exact congrArg (fun w => [w]) (clip_name (h _ List.mem_cons_self))
      | cons s more =>
          have hlabelled : ∀ {name : PlainName reserved},
              (∀ w ∈ name.text :: spaced (s :: more), ∀ m ∈ modifiers,
                ¬ m <:+ w.map Char.toUpper) →
                  clip name.text :: (entries [' '] (s :: more)).map Entry.name =
                    name.text :: tableNames (s :: more) := by
            intro name h
            rw [clip_name (h _ List.mem_cons_self),
              ih (fun w hw => h w (List.mem_cons_of_mem _ hw)) [' ']]
          obtain ⟨name, label⟩ := r
          cases label with
          | none => exact congrArg (name.text :: ·) (ih h [' '])
          | short | long => exact hlabelled h

/-- Without an anchor at the end, the tables of a query are the names that are read, which are the
names that were written if no name in front of white space ends with a modifier. -/
theorem tablesOf_references (r : Reference) (others : List Reference)
    (hlast : (lastLabel (r :: others)).Holds NoAnchor) :
    tablesOf (query (r :: others)) = (listed (namesRead (r :: others))).eraseDups ∧
      ((∀ w ∈ spaced (r :: others), ∀ m ∈ modifiers, ¬ m <:+ w.map Char.toUpper) →
        tablesOf (query (r :: others)) = (tableNames (r :: others)).eraseDups) := by
  have htables : tablesOf (query (r :: others)) =
      (listed (namesRead (r :: others))).eraseDups := by
    rw [query_eq, Extraction.tablesOf_selectStar (replaceAll_query r others)
      (blankLiterals_query _), lists_query r others hlast, List.flatMap_singleton,
      tables_row (readable_entries (List.forall_mem_nil _) _) (by cases others <;> rfl), namesRead]
  refine ⟨htables, fun hwhole => ?_⟩
  rw [htables, namesRead_eq_tableNames hwhole, listed_tableNames]

/-- Names that start or end with a modifier, none of them at its end in front of white space. -/
theorem tablesOf_references_overlapping :
    tablesOf "SELECT * FROM ignored i, xignore, delayed_jobs AS ignore_w WHERE id = 1".toList =
      ["ignored".toList, "xignore".toList, "delayed_jobs".toList] := by
  let name (t : Text) (h : (∀ c ∈ t, c.isAlphanum = true ∨ c = '_') ∧ t.hasLetter = true ∧
      t.map Char.toUpper ∉ reserved) : PlainName reserved := ⟨t, ⟨h.1, h.2.1⟩, h.2.2⟩
  let first : Reference := ⟨name "ignored".toList (by decide), .short (name "i".toList (by decide))⟩
  let second : Reference := ⟨name "xignore".toList (by decide), .none⟩
  let last : Reference :=
    ⟨name "delayed_jobs".toList (by decide), .long (name "ignore_w".toList (by decide))⟩
  have hlast : (lastLabel [first, second, last]).Holds NoAnchor := by
    intro k hk
    revert k
    decide
  exact (tablesOf_references first [second, last] hlast).2 (by decide)

/-- A name in front of white space loses the modifier that it ends with. -/
theorem tablesOf_references_ne : ∃ r : Reference,
    query [r] = "SELECT * FROM xignore WHERE id = 1".toList ∧
      tablesOf (query [r]) = ["x".toList] ∧ tablesOf (query [r]) ≠ (tableNames [r]).eraseDups := by
  let xignore : PlainName reserved :=
    ⟨"xignore".toList, ⟨by decide, by decide⟩, by decide⟩
  refine ⟨⟨xignore, .none⟩, by decide, by decide +kernel, by decide +kernel⟩

end QueryDigest.CommaJoin
