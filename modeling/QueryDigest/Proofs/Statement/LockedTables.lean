import QueryDigest.Proofs.Statement.LockModes
import QueryDigest.Proofs.Statement.Subqueries

/-!
Statements that lock tables. Their tables are found in the order they are written in, and just a
name behind another one and a short alias that start with a mode lose it: the name is cut, what is
left of the alias becomes the end of the name.
-/

namespace QueryDigest.LockedTables

open Extraction (behindMode? behindSpace lockMode)
open Nested (Unmodified modifiers)
open Pattern TableClause
open Unicode (foldLetter isBlank isWord)

/-! ### The statements -/

/-- The words that no name and no alias is. -/
def reserved : List Text :=
  ["READ", "WRITE", "LOCAL", "AS", "SELECT", "FROM", "JOIN", "INTO", "UPDATE"].map String.toList

/-- A name of a table or an alias, which does not end with a modifier. -/
structure Name extends PlainName reserved where
  unmodified : ∀ m ∈ modifiers, ¬ m <:+ text.map Char.toUpper

inductive Mode where
  | read
  | readLocal
  | write

def Mode.text : Mode → Text
  | read => "READ".toList
  | readLocal => "READ LOCAL".toList
  | write => "WRITE".toList

structure Lock where
  name : Name
  label : Label Name
  mode : Mode

def Lock.text (lock : Lock) : Text :=
  lock.name.text ++ ((lock.label.map fun name => name.text).text ++ ' ' :: lock.mode.text)

def statement (locks : List Lock) : Text :=
  "LOCK TABLES ".toList ++ Text.join ", ".toList (locks.map Lock.text)

/-- The names of the tables, in the order they are written in. -/
def tableNames (locks : List Lock) : List Text :=
  locks.map fun lock => lock.name.text

/-- The words with white space and nothing else in front of them: the names behind the first one
and the aliases in the short form. -/
def exposed (lock : Lock) (others : List Lock) : List Text :=
  (others.map fun other => other.name.text) ++ (lock :: others).flatMap fun l =>
    match l.label with
    | .short name => [name.text]
    | _ => []

/-- A word that does not start with a mode. -/
def NoMode (w : Text) : Prop :=
  ∀ k ∈ Extraction.modes, ¬ k <+: w.map Char.toUpper

instance (w : Text) : Decidable (NoMode w) :=
  inferInstanceAs (Decidable (∀ k ∈ Extraction.modes, ¬ k <+: w.map Char.toUpper))

/-! ### What is read -/

/-- What a name takes in from the alias behind it. -/
def taken : Label Name → Text
  | .short name => (behindMode? name.text).getD []
  | _ => []

/-- An alias as it is read. -/
def labelRead : Label Name → Label Text
  | .none => .none
  | .short name =>
    match behindMode? name.text with
    | some _ => .none
    | none => .short name.text
  | .long name =>
    match behindMode? name.text with
    | some v => .short ("AS".toList ++ v)
    | none => .long name.text

/-- A lock as it is read at the start of the list. -/
def firstEntry (lock : Lock) : Entry :=
  ⟨[], lock.name.text ++ taken lock.label, labelRead lock.label⟩

/-- A lock as it is read behind another one. -/
def otherEntry (lock : Lock) : Entry :=
  match behindMode? lock.name.text with
  | some v => ⟨[], v ++ taken lock.label, labelRead lock.label⟩
  | none => ⟨[' '], lock.name.text ++ taken lock.label, labelRead lock.label⟩

def entries (lock : Lock) (others : List Lock) : List Entry :=
  firstEntry lock :: others.map otherEntry

def namesRead (lock : Lock) (others : List Lock) : List Text :=
  (entries lock others).map Entry.name

theorem entries_ne_nil (lock : Lock) (others : List Lock) : entries lock others ≠ [] :=
  List.cons_ne_nil _ _

/-- The alias behind the last name. -/
def lastLabel (lock : Lock) (others : List Lock) : Label Text :=
  ((entries lock others).getLast (entries_ne_nil lock others)).label

namespace Name

variable (name : Name)

theorem fold_not_mem_modes : name.text.map foldLetter ∉ Extraction.modes := by
  have hmodes : ∀ k ∈ Extraction.modes, k ∈ reserved := by decide
  exact fun hm => name.fold_ne (hmodes _ hm) rfl

theorem wordy_behindMode {v : Text} (h : behindMode? name.text = some v) : Wordy v :=
  Extraction.wordy_behindMode name.plain.wordy name.fold_not_mem_modes h

theorem noAnchor : NoAnchor name.text := fun k hk => by
  have hanchors : ∀ k ∈ anchors, k ∈ reserved ∧ k.map foldLetter = k := by decide
  obtain ⟨hreserved, hfold⟩ := hanchors k hk
  rw [hfold]
  exact name.fold_ne hreserved

end Name

theorem word_taken (label : Label Name) : ∀ c ∈ taken label, isWord c = true := by
  cases label with
  | none | long => exact List.forall_mem_nil _
  | short name =>
      rw [taken]
      cases hbehind : behindMode? name.text with
      | none => exact List.forall_mem_nil _
      | some v => exact (name.wordy_behindMode hbehind).2

/-- What is left of an alias is a word that no clause starts with. -/
theorem holds_labelRead (label : Label Name) :
    (labelRead label).Holds Wordy ∧ (labelRead label).Holds NoAnchor := by
  cases label with
  | none => exact ⟨trivial, trivial⟩
  | short name =>
      rw [labelRead]
      cases behindMode? name.text with
      | none => exact ⟨name.plain.wordy, name.noAnchor⟩
      | some v => exact ⟨trivial, trivial⟩
  | long name =>
      rw [labelRead]
      cases hbehind : behindMode? name.text with
      | none => exact ⟨name.plain.wordy, name.noAnchor⟩
      | some v =>
          have hanchors : ∀ k ∈ anchors, (k.map foldLetter).head? ≠ some 'A' := by decide
          refine ⟨wordy_as.append (name.wordy_behindMode hbehind).2, fun k hk hfold => ?_⟩
          apply hanchors k hk
          rw [← hfold]
          rfl

theorem readable_firstEntry (lock : Lock) : (firstEntry lock).Readable :=
  ⟨List.forall_mem_nil _, lock.name.plain.wordy.append (word_taken lock.label),
    (holds_labelRead lock.label).1⟩

theorem readable_otherEntry (lock : Lock) : (otherEntry lock).Readable := by
  have hlabel := (holds_labelRead lock.label).1
  rw [otherEntry]
  cases hbehind : behindMode? lock.name.text with
  | none => exact ⟨List.forall_mem_singleton.mpr rfl,
      lock.name.plain.wordy.append (word_taken lock.label), hlabel⟩
  | some v => exact ⟨List.forall_mem_nil _,
      (lock.name.wordy_behindMode hbehind).append (word_taken lock.label), hlabel⟩

theorem readable_entries (lock : Lock) (others : List Lock) :
    ∀ e ∈ entries lock others, e.Readable :=
  List.forall_mem_cons.mpr ⟨readable_firstEntry lock,
    List.forall_mem_map.mpr fun other _ => readable_otherEntry other⟩

theorem label_entries (lock : Lock) (others : List Lock) :
    ∀ e ∈ entries lock others, ∃ label, e.label = labelRead label := by
  have hother : ∀ other : Lock, (otherEntry other).label = labelRead other.label := by
    intro other
    rw [otherEntry]
    split <;> rfl
  exact List.forall_mem_cons.mpr ⟨⟨lock.label, rfl⟩,
    List.forall_mem_map.mpr fun other _ => ⟨other.label, hother other⟩⟩

theorem holds_lastLabel (lock : Lock) (others : List Lock) :
    (lastLabel lock others).Holds Wordy ∧ (lastLabel lock others).Holds NoAnchor := by
  obtain ⟨label, hlabel⟩ := label_entries lock others _
    (List.getLast_mem (entries_ne_nil lock others))
  rw [lastLabel, hlabel]
  exact holds_labelRead label

/-! ### The removal of modes -/

/-- The end of a text, or a comma. -/
def EndsLock (rest : Text) : Prop :=
  rest.head? ∈ [none, some ',']

theorem edge_of_endsLock {rest : Text} (h : EndsLock rest) :
    isWordAt rest.head? = false ∧ ∀ c, rest.head? = some c → isBlank c = false := by
  obtain hnone | hcomma : rest.head? = none ∨ rest.head? = some ',' := by
    simpa [EndsLock] using h
  · rw [hnone]
    exact ⟨rfl, fun c hc => by cases hc⟩
  · rw [hcomma]
    refine ⟨rfl, fun c hc => ?_⟩
    cases hc
    rfl

theorem turns_mode (mode : Mode) {rest : Text} (hrest : EndsLock rest) (before : Text) :
    Turns lockMode [] before (' ' :: mode.text) rest [] := by
  have hblank := (edge_of_endsLock hrest).2
  have hreads : Extraction.ReadsMode mode.text rest := by
    cases mode with
    | read => exact Extraction.readsMode_word (by decide) hblank
    | readLocal => exact Extraction.readsMode_local
    | write => exact Extraction.readsMode_word (by decide) hblank
  have hfirst : ∀ c, (mode.text ++ rest).head? = some c → isBlank c = false := by
    cases mode with
    | read | readLocal | write =>
        rintro _ ⟨⟩
        decide
  exact Extraction.turns_mode hreads hfirst hblank before

theorem turns_name (name : Name) {rest : Text} (hrest : isWordAt rest.head? = false)
    (before : Text) : Turns lockMode [] before (' ' :: name.text) rest (behindSpace name.text) :=
  Extraction.turns_behindSpace name.plain.wordy name.fold_not_mem_modes hrest before

theorem behindSpace_short (name : Name) :
    behindSpace name.text = taken (.short name) ++ (labelRead (.short name)).text := by
  rw [behindSpace, taken, labelRead]
  cases behindMode? name.text with
  | none => rfl
  | some v => exact (List.append_nil v).symm

theorem behindSpace_long (name : Name) :
    " AS".toList ++ behindSpace name.text = (labelRead (.long name)).text := by
  rw [behindSpace, labelRead]
  cases behindMode? name.text <;> rfl

theorem turns_word {w : Text} (hw : ∀ c ∈ w, isBlank c = false) (before rest : Text) :
    Turns lockMode [] before w rest w :=
  turns_of_chars (P := fun c => isBlank c = false)
    (fun hc => Extraction.matchAt?_lockMode_none hc) hw

/-- The mode behind a name goes, and with it what an alias starts with. -/
theorem turns_label (lock : Lock) {rest : Text} (hrest : EndsLock rest) (before : Text) :
    Turns lockMode [] before
      ((lock.label.map fun name => name.text).text ++ ' ' :: lock.mode.text) rest
      (taken lock.label ++ (labelRead lock.label).text) := by
  have hmode := fun before => turns_mode lock.mode hrest before
  have hname : ∀ (name : Name) before, Turns lockMode [] before
      (' ' :: name.text ++ ' ' :: lock.mode.text) rest (behindSpace name.text) := by
    intro name before
    have hedge : isWordAt (' ' :: lock.mode.text ++ rest).head? = false := rfl
    have hall := (turns_name name hedge before).append (hmode _)
    rwa [List.append_nil] at hall
  cases lock.label with
  | none => exact hmode before
  | short name =>
      rw [← behindSpace_short]
      exact hname name before
  | long name =>
      -- AS keeps its place, so what is left of the alias is glued to AS and not to the name.
      have has : Turns lockMode [] before " AS".toList
          (' ' :: name.text ++ ' ' :: lock.mode.text ++ rest) " AS".toList :=
        Extraction.turns_behindSpace wordy_as (by decide) rfl before
      have hall := has.append (hname name _)
      rw [behindSpace_long] at hall
      exact hall

theorem turns_firstLock (lock : Lock) {rest : Text} (hrest : EndsLock rest) (before : Text) :
    Turns lockMode [] before lock.text rest (firstEntry lock).text := by
  have hname := turns_word (fun c hc => Unicode.isBlank_of_isWord (lock.name.plain.word c hc))
  have hall := (hname before _).append (turns_label lock hrest _)
  simpa [firstEntry, Entry.text, Lock.text] using hall

theorem behindSpace_name (lock : Lock) :
    behindSpace lock.name.text ++ (taken lock.label ++ (labelRead lock.label).text) =
      (otherEntry lock).text := by
  rw [behindSpace, otherEntry]
  cases behindMode? lock.name.text <;> simp [Entry.text]

theorem turns_otherLock (lock : Lock) {rest : Text} (hrest : EndsLock rest) (before : Text) :
    Turns lockMode [] before (", ".toList ++ lock.text) rest (',' :: (otherEntry lock).text) := by
  have hedge : isWordAt ((lock.label.map fun name => name.text).text ++
      ' ' :: lock.mode.text ++ rest).head? = false := by
    rw [List.append_assoc]
    exact (edge_label _ rfl (by simp)).1
  have hcomma := turns_word (w := [',']) (by decide) before
  have hall := (hcomma _).append ((turns_name lock.name hedge _).append (turns_label lock hrest _))
  rw [behindSpace_name] at hall
  simpa [Lock.text] using hall

/-- The locks behind the first one. -/
def behindFirst (others : List Lock) : Text :=
  others.flatMap fun other => ", ".toList ++ other.text

theorem join_locks (lock : Lock) (others : List Lock) :
    Text.join ", ".toList ((lock :: others).map Lock.text) = lock.text ++ behindFirst others := by
  rw [List.map_cons, Text.join_eq_flatMap, List.flatMap_map]
  rfl

theorem endsLock_behindFirst (others : List Lock) : EndsLock (behindFirst others ++ []) := by
  cases others with
  | nil => exact List.mem_cons_self
  | cons => exact List.mem_cons_of_mem _ List.mem_cons_self

theorem turns_behindFirst (others : List Lock) (before : Text) :
    Turns lockMode [] before (behindFirst others) []
      (others.flatMap fun other => [','] ++ (otherEntry other).text) := by
  induction others generalizing before with
  | nil => rfl
  | cons other others ih =>
      rw [behindFirst, List.flatMap_cons, List.flatMap_cons]
      exact (turns_otherLock other (endsLock_behindFirst others) before).append (ih _)

/-- Without the modes, the locks are a list of names with an alias behind it. -/
theorem removeAll_locks (lock : Lock) (others : List Lock) :
    lockMode.removeAll (lock.text ++ behindFirst others) =
      row (entries lock others) ++ (lastLabel lock others).text := by
  have hall := (turns_firstLock lock (endsLock_behindFirst others) []).append
    (turns_behindFirst others _)
  rw [lastLabel, row_append_label, entries, List.map_cons, Text.join_eq_flatMap, List.flatMap_map,
    List.flatMap_map]
  exact hall.replaceAll

/-! ### The other passes -/

theorem unmodified_keyword : ∀ w ∈ ["LOCK", "TABLES", "AS", "READ", "LOCAL", "WRITE"],
    Unmodified w.toList := by
  have hwords : ∀ w ∈ ["LOCK", "TABLES", "AS", "READ", "LOCAL", "WRITE"],
      (∀ c ∈ w.toList, isWord c = true) ∧
        ∀ m ∈ modifiers, ¬ m <:+ w.toList.map foldLetter := by decide
  exact fun w hw => .word (hwords w hw).1 (hwords w hw).2

theorem unmodified_mode (mode : Mode) : Unmodified mode.text := by
  cases mode with
  | read => exact unmodified_keyword _ (by decide)
  | write => exact unmodified_keyword _ (by decide)
  | readLocal =>
      exact (unmodified_keyword "READ" (by decide)).mark (c := ' ')
        (unmodified_keyword "LOCAL" (by decide)) rfl

theorem unmodified_name (name : Name) : Unmodified name.text :=
  .word name.plain.word (name.plain.fold ▸ name.unmodified)

theorem unmodified_lock (lock : Lock) : Unmodified lock.text := by
  have hmode := unmodified_mode lock.mode
  have hname := unmodified_name lock.name
  have halias : ∀ name : Name, Unmodified (name.text ++ ' ' :: lock.mode.text) := fun name =>
    (unmodified_name name).mark hmode rfl
  have has := unmodified_keyword "AS" (by decide)
  rw [Lock.text]
  cases lock.label with
  | none => exact hname.mark hmode rfl
  | short name => exact hname.mark (halias name) rfl
  | long name =>
      have hlabel := hname.mark (has.mark (halias name) (c := ' ') rfl) (c := ' ') rfl
      simpa [Label.map, Label.text] using hlabel

theorem unmodified_behindFirst (others : List Lock) {t : Text} (ht : Unmodified t) :
    Unmodified (t ++ behindFirst others) := by
  induction others generalizing t with
  | nil =>
      rw [behindFirst, List.flatMap_nil, List.append_nil]
      exact ht
  | cons other others ih =>
      have hfirst := ht.mark (Unmodified.nil.mark (unmodified_lock other) (c := ' ') rfl)
        (c := ',') rfl
      have hall := ih hfirst
      rwa [List.append_assoc] at hall

theorem statement_eq (lock : Lock) (others : List Lock) :
    statement (lock :: others) = "LOCK TABLES ".toList ++ (lock.text ++ behindFirst others) :=
  congrArg ("LOCK TABLES ".toList ++ ·) (join_locks lock others)

theorem unmodified_statement (lock : Lock) (others : List Lock) :
    Unmodified (statement (lock :: others)) := by
  have hlocks := unmodified_behindFirst others (unmodified_lock lock)
  have htables := (unmodified_keyword "TABLES" (by decide)).mark hlocks (c := ' ') rfl
  have hall := (unmodified_keyword "LOCK" (by decide)).mark htables (c := ' ') rfl
  rw [statement_eq]
  simpa using hall

theorem matchAt?_lockOpening {t : Text} (ht : ∀ c, t.head? = some c → isBlank c = false) :
    Extraction.lockOpening.matchAt? (.start ("LOCK TABLES ".toList ++ t)) =
      some ⟨.start ("LOCK TABLES ".toList ++ t), "LOCK TABLES ".toList.length, []⟩ := by
  have hfront : (Attempt.leading ("LOCK TABLES ".toList ++ t)).after =
      "LOCK TABLES".toList ++ ' ' :: t := rfl
  have hrun : Extraction.lockOpening.run (.start (.start ("LOCK TABLES ".toList ++ t))) some =
      some (((Attempt.leading ("LOCK TABLES ".toList ++ t)).take "LOCK TABLES".toList
        (' ' :: t)).take [' '] t) := by
    rw [Extraction.lockOpening, run_append, run_append, run_leading, run_keyword rfl hfront,
      run_blank ht rfl]
  exact congrArg (Option.map _) hrun

theorem locked?_statement (lock : Lock) (others : List Lock) :
    Extraction.locked? (statement (lock :: others)) =
      some (row (entries lock others) ++ (lastLabel lock others).text) := by
  have hanchored : Extraction.lockOpening.Anchored :=
    ((anchored_textStart.append maybeBlanks).append _).append blanks
  have hhead : ∀ c, (lock.text ++ behindFirst others).head? = some c → isBlank c = false := by
    rw [Lock.text, List.append_assoc]
    exact head?_wordy lock.name.plain.wordy _
  rw [statement_eq, Extraction.locked?, find_anchored hanchored, matchAt?_lockOpening hhead,
    ← removeAll_locks]
  rfl

/-! ### The tables of a statement -/

/-- The statement as the clauses are looked for in it. -/
def clause (lock : Lock) (others : List Lock) : Text :=
  "FROM ".toList ++ (row (entries lock others) ++ (lastLabel lock others).text)

theorem scanned_statement (lock : Lock) (others : List Lock) :
    Extraction.scanned (statement (lock :: others)) = clause lock others := by
  have hfrom : ∀ c ∈ "FROM ".toList,
      isWord c = true ∨ isBlank c = true ∨ c ∈ "*(),=".toList := by decide
  have hblank : Extraction.blankLiterals (clause lock others) = clause lock others :=
    Extraction.blankLiterals_of_chars (List.forall_mem_append.mpr ⟨hfrom,
      chars_list (readable_entries lock others) (holds_lastLabel lock others).1⟩)
  have hanchored : Extraction.insertOpening.Anchored :=
    (anchored_textStart.append maybeBlanks).append _
  have hinsert : Extraction.insertOpening.find (clause lock others) = none :=
    find_anchored hanchored _
  rw [Extraction.scanned, Extraction.unlocked,
    (unmodified_statement lock others).replaceAll_modifier, locked?_statement]
  change Extraction.spellInto (Extraction.blankLiterals (clause lock others)) = _
  rw [hblank, Extraction.spellInto, hinsert]

theorem lists_clause (lock : Lock) (others : List Lock) :
    lists (clause lock others) = [row (entries lock others)] := by
  obtain ⟨hlabel, hother⟩ := holds_lastLabel lock others
  exact (yields_row (readable_entries lock others) rfl hlabel hother rfl endsList_nil).lists

theorem tablesOf_statement (lock : Lock) (others : List Lock) :
    tablesOf (statement (lock :: others)) = (listed (namesRead lock others)).eraseDups := by
  have hverb : DefinitionVerb.ofStatement? (statement (lock :: others)) = none :=
    DefinitionVerb.ofStatement?_of_word (w := "LOCK".toList) (by decide) (by decide) rfl
      fun verb => by cases verb <;> decide
  have hanchored : Extraction.loadOpening.Anchored :=
    (anchored_textStart.append maybeBlanks).append _
  have hload : Extraction.loadOpening.find (clause lock others) = none :=
    find_anchored hanchored _
  rw [tablesOf, Extraction.ofStatement, hverb, Extraction.tables_ofClauses_eq, scanned_statement,
    occursIn, hload, lists_clause]
  change ([row (entries lock others)].flatMap tables).eraseDups = _
  rw [List.flatMap_singleton, tables_row (readable_entries lock others) rfl, namesRead]

theorem listed_tableNames (locks : List Lock) : listed (tableNames locks) = tableNames locks :=
  listed_eq_self (List.forall_mem_map.mpr fun lock _ => lock.name.plain.letter)
    (List.forall_mem_map.mpr fun lock _ => lock.name.fold_ne (by decide))

theorem Name.behindMode?_eq_none {name : Name} (h : NoMode name.text) :
    behindMode? name.text = none :=
  Extraction.behindMode?_eq_none.mpr (name.plain.fold ▸ h)

theorem taken_eq_nil {label : Label Name} (h : ∀ name, label = .short name → NoMode name.text) :
    taken label = [] := by
  cases label with
  | none | long => rfl
  | short name => rw [taken, name.behindMode?_eq_none (h name rfl)]; rfl

theorem namesRead_eq_tableNames {lock : Lock} {others : List Lock}
    (h : ∀ w ∈ exposed lock others, NoMode w) :
    namesRead lock others = tableNames (lock :: others) := by
  have halias : ∀ l ∈ lock :: others, taken l.label = [] := by
    intro l hl
    refine taken_eq_nil fun name hlabel => h _ (List.mem_append_right _ ?_)
    exact List.mem_flatMap.mpr ⟨l, hl, by rw [hlabel]; exact List.mem_cons_self⟩
  have hfirst : (firstEntry lock).name = lock.name.text := by
    rw [firstEntry, halias lock List.mem_cons_self, List.append_nil]
  have hother : ∀ other ∈ others, (otherEntry other).name = other.name.text := by
    intro other hmem
    have hname := h _ (List.mem_append_left _ (List.mem_map_of_mem hmem))
    rw [otherEntry, other.name.behindMode?_eq_none hname]
    change other.name.text ++ taken other.label = other.name.text
    rw [halias other (List.mem_cons_of_mem lock hmem), List.append_nil]
  rw [namesRead, entries, List.map_cons, hfirst, List.map_map, tableNames, List.map_cons]
  exact congrArg (lock.name.text :: ·) (List.map_congr_left hother)

/-- The tables of a statement are the names that are read, which are the names that were written if
none of them but the first one and no alias in the short form starts with a mode. -/
theorem tablesOf_locks (lock : Lock) (others : List Lock) :
    tablesOf (statement (lock :: others)) = (listed (namesRead lock others)).eraseDups ∧
      ((∀ w ∈ exposed lock others, NoMode w) →
        tablesOf (statement (lock :: others)) = (tableNames (lock :: others)).eraseDups) := by
  refine ⟨tablesOf_statement lock others, fun hmodes => ?_⟩
  rw [tablesOf_statement, namesRead_eq_tableNames hmodes, listed_tableNames]

/-- Names and aliases with the letters of a mode, in places where these are not lost. -/
theorem tablesOf_locks_overlapping :
    tablesOf
        "LOCK TABLES readers r READ, spread AS writer READ LOCAL, local_t rewrite WRITE".toList =
      ["readers".toList, "spread".toList, "local_t".toList] := by
  let name (t : Text) (h : (∀ c ∈ t, c.isAlphanum = true ∨ c = '_') ∧ t.hasLetter = true ∧
      t.map Char.toUpper ∉ reserved ∧ ∀ m ∈ modifiers, ¬ m <:+ t.map Char.toUpper) : Name :=
    ⟨⟨t, ⟨h.1, h.2.1⟩, h.2.2.1⟩, h.2.2.2⟩
  let first : Lock :=
    ⟨name "readers".toList (by decide), .short (name "r".toList (by decide)), .read⟩
  let second : Lock :=
    ⟨name "spread".toList (by decide), .long (name "writer".toList (by decide)), .readLocal⟩
  let last : Lock :=
    ⟨name "local_t".toList (by decide), .short (name "rewrite".toList (by decide)), .write⟩
  exact (tablesOf_locks first [second, last]).2 (by decide)

/-- A name behind another one loses the mode that it starts with. -/
theorem tablesOf_locks_ne : ∃ lock other : Lock,
    statement [lock, other] = "LOCK TABLES a READ, readers WRITE".toList ∧
      tablesOf (statement [lock, other]) = ["a".toList, "ers".toList] ∧
        tablesOf (statement [lock, other]) ≠ (tableNames [lock, other]).eraseDups := by
  let a : Name := ⟨⟨"a".toList, ⟨by decide, by decide⟩, by decide⟩, by decide⟩
  let readers : Name := ⟨⟨"readers".toList, ⟨by decide, by decide⟩, by decide⟩, by decide⟩
  refine ⟨⟨a, .none, .read⟩, ⟨readers, .none, .write⟩, by decide, by decide +kernel,
    by decide +kernel⟩

end QueryDigest.LockedTables
