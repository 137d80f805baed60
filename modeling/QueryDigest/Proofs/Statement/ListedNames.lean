import QueryDigest.Proofs.Pattern.Languages
import QueryDigest.Proofs.Statement.Literals
import QueryDigest.Proofs.Statement.NameLists

/-!
What is found in the list of a clause, whatever its names look like. Every list is a row of items
between commas, each a name with an alias or without one. The list is cut at all commas, those in
quoted names included, and only the line that a name ends on counts as its alias, so that an item
comes out as its name just where its name has no comma and its alias is on the line of its AS.
-/

namespace QueryDigest

open Pattern
open Text (Blank)
open Unicode (foldLetter isBlank isWord)

namespace NameList

open TableClause (Wordy reference subquery)
open Identifier (backquote)

/-! ### Rows of items -/

/-- A word, or any text between back-quotes. -/
inductive Part where
  | word (w : Text) (wordy : Wordy w)
  | quoted (inner : Text) (nonempty : inner ≠ []) (unquoted : backquote ∉ inner)

def Part.text : Part → Text
  | .word w _ => w
  | .quoted inner _ _ => [backquote] ++ (inner ++ [backquote])

inductive Name where
  | plain (name : Part)
  | qualified (schema name : Part)

def Name.text : Name → Text
  | .plain name => name.text
  | .qualified schema name => schema.text ++ ('.' :: name.text)

/-- What stands behind a name: nothing, or an alias, which may have AS in front of it. -/
inductive Alias where
  | none
  | short (gap w : Text) (blank : Blank gap) (wordy : Wordy w)
  | long (gap as gap' w : Text) (blank : Blank gap) (reads : as.map foldLetter = "AS".toList)
    (blank' : Blank gap') (wordy : Wordy w)

namespace Alias

def text : Alias → Text
  | none => []
  | short gap w _ _ => gap ++ w
  | long gap as gap' w _ _ _ _ => gap ++ (as ++ (gap' ++ w))

/-- An alias that stands on the line of its AS. -/
def OnLine : Alias → Prop
  | none | short .. => True
  | long _ _ gap' _ _ _ _ _ => '\n' ∉ gap'

end Alias

/-- An item of a list, with the white space in front of it. -/
structure Item where
  gap : Text
  blank : ∀ c ∈ gap, isBlank c = true
  name : Name
  label : Alias

namespace Item

def text (item : Item) : Text :=
  item.gap ++ (item.name.text ++ item.label.text)

/-- An item that is not torn apart. -/
structure Whole (item : Item) : Prop where
  name : ',' ∉ item.name.text
  label : item.label.OnLine

/-- What an item comes to in the cells that its commas cut it into. -/
def found (item : Item) : List Text :=
  (item.text.splitOn ',').map (reference.replaceAll (·.group 0))

end Item

/-- A list as it is spelled. -/
def spelled (items : List Item) : Text :=
  Text.join [','] (items.map Item.text)

/-! ### Lists that are read -/

theorem passes_quoted : Passes Identifier.quoted fun w =>
    ∃ inner, inner ≠ [] ∧ backquote ∉ inner ∧ w = [backquote] ++ (inner ++ [backquote]) := by
  refine (((passes_char backquote).append (passes_someOf (· != backquote))).append
    (passes_char backquote)).imp ?_
  rintro _ ⟨_, _, ⟨_, inner, rfl, ⟨hne, hinner⟩, rfl⟩, rfl, rfl⟩
  refine ⟨inner, hne, fun hmem => ?_, List.append_assoc _ _ _⟩
  exact bne_iff_ne.mp (hinner _ hmem) rfl

theorem passes_simple : Passes Identifier.simple fun w => ∃ part : Part, w = part.text := by
  refine (passes_quoted.or (passes_someOf isWord)).imp ?_
  rintro w (⟨inner, hne, hunquoted, rfl⟩ | hw)
  · exact ⟨.quoted inner hne hunquoted, rfl⟩
  · exact ⟨.word w hw, rfl⟩

theorem passes_name : Passes Identifier.pattern fun w => ∃ name : Name, w = name.text := by
  refine (passes_simple.append ((passes_char '.').append passes_simple).optional).imp ?_
  rintro _ ⟨_, _, ⟨schema, rfl⟩, ⟨_, _, rfl, ⟨name, rfl⟩, rfl⟩ | rfl, rfl⟩
  · exact ⟨.qualified schema name, rfl⟩
  · exact ⟨.plain schema, List.append_nil _⟩

theorem passes_label : Passes (optional TableClause.otherName) fun w =>
    ∃ label : Alias, w = label.text := by
  have hother := (passes_blanks.append ((passes_keyword "AS".toList).append passes_blanks).optional)
    |>.append (passes_someOf isWord)
  refine hother.optional.imp ?_
  rintro _ (⟨_, w, ⟨gap, _, hgap, hlong | rfl, rfl⟩, hw, rfl⟩ | rfl)
  · obtain ⟨as, gap', has, hgap', rfl⟩ := hlong
    exact ⟨.long gap as gap' w hgap has hgap' hw, by simp [Alias.text]⟩
  · exact ⟨.short gap w hgap hw, by simp [Alias.text]⟩
  · exact ⟨.none, rfl⟩

/-- A round of a list takes the alias of one item and the comma and the name of the next. -/
theorem passes_round : Passes TableClause.round fun w =>
    ∃ (label : Alias) (gap : Text) (name : Name), (∀ c ∈ gap, isBlank c = true) ∧
      w = label.text ++ ',' :: (gap ++ name.text) := by
  refine (passes_label.append ((passes_char ',').append
    ((passes_allOf isBlank).append passes_name))).imp ?_
  rintro _ ⟨_, _, ⟨label, rfl⟩, ⟨_, _, rfl, ⟨gap, _, hgap, ⟨name, rfl⟩, rfl⟩, rfl⟩, rfl⟩
  exact ⟨label, gap, name, hgap, rfl⟩

theorem spelled_singleton (item : Item) : spelled [item] = item.text := by
  simp [spelled, Text.join]

theorem spelled_cons (item : Item) {items : List Item} (hne : items ≠ []) :
    spelled (item :: items) = item.text ++ ',' :: spelled items :=
  Text.join_cons (by simp [hne]) [',']

/-- A name with rounds behind it is a row of items. -/
theorem exists_items (us : List Text)
    (hus : ∀ u ∈ us, ∃ (label : Alias) (gap : Text) (name : Name),
      (∀ c ∈ gap, isBlank c = true) ∧ u = label.text ++ ',' :: (gap ++ name.text))
    {gap : Text} (hgap : ∀ c ∈ gap, isBlank c = true) (name : Name) :
    ∃ items, items ≠ [] ∧ gap ++ (name.text ++ us.flatten) = spelled items := by
  induction us generalizing gap name with
  | nil =>
      refine ⟨[⟨gap, hgap, name, .none⟩], List.cons_ne_nil _ _, ?_⟩
      rw [spelled_singleton]
      rfl
  | cons u us ih =>
      obtain ⟨⟨label, gap', name', hgap', rfl⟩, hothers⟩ := List.forall_mem_cons.mp hus
      obtain ⟨items, hne, hspelled⟩ := ih hothers hgap' name'
      refine ⟨⟨gap, hgap, name, label⟩ :: items, List.cons_ne_nil _ _, ?_⟩
      rw [spelled_cons _ hne, ← hspelled]
      simp [Item.text]

theorem passes_nameList : Passes TableClause.nameList fun w => ∃ items, w = spelled items := by
  refine (passes_name.append passes_round.many).imp ?_
  rintro _ ⟨_, _, ⟨name, rfl⟩, ⟨us, hus, rfl⟩, rfl⟩
  obtain ⟨items, _, hspelled⟩ := exists_items us hus (List.forall_mem_nil _) name
  exact ⟨items, hspelled⟩

/-- The list of a clause that is found is a row of items. -/
theorem exists_group {c : Cursor} {h : Hit} (hmatch : TableClause.pattern.matchAt? c = some h) :
    ∃ items, spelled items = h.group 1 := by
  obtain ⟨b, hrun, rfl⟩ := matchAt?_eq_some hmatch
  rw [TableClause.run_pattern] at hrun
  obtain ⟨_, hrun⟩ := run_wordEdge_some.mp hrun
  obtain ⟨_, _, w, behind, hafter, _, hrun⟩ := run_keywords_eq_some hrun
  rw [TableClause.behindAnchor, run_append] at hrun
  obtain ⟨_, hrun⟩ := run_wordEdge_some.mp hrun
  rw [run_append, maybeBlanks] at hrun
  obtain ⟨u, more, _, hbehind, hrun⟩ := passes_allOf isBlank hrun
  rw [run_append] at hrun
  obtain ⟨v, more', _, hmore, hrun⟩ := (passes_char '(').optional hrun
  rw [run_group] at hrun
  obtain ⟨list, rest, ⟨items, rfl⟩, hlist, hend⟩ := passes_nameList hrun
  change c.after = _ at hafter
  obtain rfl : behind = u ++ more := hbehind
  obtain rfl : more = v ++ more' := hmore
  obtain rfl : more' = spelled items ++ rest := hlist
  obtain rfl := Option.some.inj hend
  refine ⟨items, ?_⟩
  have hsplit : c.after = (w ++ (u ++ v)) ++ (spelled items ++ rest) := by simp [hafter]
  have hlength : w.length + (u.length + (v.length + (spelled items).length)) -
      (w.length + (u.length + v.length)) = (spelled items).length := by omega
  simp [Hit.group, hsplit, Attempt.close, Attempt.start, Nat.add_assoc, hlength]

theorem exists_rows (most : Nat) (place : Cursor) :
    ∃ rows : List (List Item), rows.map spelled = TableClause.listsFrom most place := by
  induction most generalizing place with
  | zero => exact ⟨[], rfl⟩
  | succ most ih =>
      rw [TableClause.listsFrom]
      cases hfind : TableClause.pattern.findFrom place with
      | none => exact ⟨[], rfl⟩
      | some h =>
          cases hcolumns : TableClause.updatesColumns h with
          | true =>
              obtain ⟨rows, hrows⟩ := ih (h.start.skip 1)
              exact ⟨rows, by simpa [hcolumns] using hrows⟩
          | false =>
              obtain ⟨_, _, _, hmatch⟩ := findBetween_some hfind
              obtain ⟨items, hitems⟩ := exists_group hmatch
              obtain ⟨rows, hrows⟩ := ih h.stop
              exact ⟨items :: rows, by simp [hcolumns, hitems, hrows]⟩

/-! ### Names in their cells -/

theorem head?_part (part : Part) (rest : Text) :
    ∀ c, (part.text ++ rest).head? = some c → isBlank c = false := by
  cases part with
  | word w wordy => exact TableClause.head?_wordy wordy rest
  | quoted inner nonempty unquoted =>
      rintro _ ⟨⟩
      decide

theorem head?_name (name : Name) (rest : Text) :
    ∀ c, (name.text ++ rest).head? = some c → isBlank c = false := by
  cases name with
  | plain name => exact head?_part name rest
  | qualified schema name =>
      rw [Name.text, List.append_assoc]
      exact head?_part schema _

theorem Name.ne_nil (name : Name) : name.text ≠ [] := by
  have hpart : ∀ part : Part, part.text ≠ []
    | .word _ wordy => wordy.1
    | .quoted .. => List.cons_ne_nil _ _
  cases name with
  | plain name => exact hpart name
  | qualified schema name => exact List.append_ne_nil_of_left_ne_nil (hpart schema) _

/-- A part of a name is read in one way, if no word goes on behind it. -/
theorem run_part (part : Part) {rest : Text} (hrest : isWordAt rest.head? = false) {a : Attempt}
    (hafter : a.after = part.text ++ rest) (onward : Onward) :
    Identifier.simple.run a onward = onward (a.take part.text rest) := by
  rw [Identifier.simple, run_or]
  cases part with
  | word w wordy =>
      have hhead : isWordAt a.after.head? = true :=
        hafter ▸ Text.isWordAt_head? wordy.1 wordy.2 rest
      rw [TableClause.run_quoted_none hhead, Option.none_or]
      exact TableClause.run_word wordy hrest hafter onward
  | quoted inner nonempty unquoted =>
      have hword : word.run a onward = none := by
        rw [word, someOf, run_append]
        refine run_one_none ?_ _
        rw [hafter]
        rintro _ ⟨⟩
        decide
      have hinner : ∀ c ∈ inner, (c != backquote) = true := fun c hc =>
        bne_iff_ne.mpr fun heq => unquoted (heq ▸ hc)
      have hclose : ∀ c, ([backquote] ++ rest).head? = some c → (c != backquote) = false := by
        rintro _ ⟨⟩
        decide
      have hafter : a.after = backquote :: (inner ++ ([backquote] ++ rest)) := by
        simpa [Part.text] using hafter
      rw [hword, Option.or_none, Identifier.quoted, run_append, run_append, run_char hafter,
        run_someOf nonempty hinner hclose rfl, run_char rfl, Attempt.take_take, Attempt.take_take]
      simp [Part.text]

/-- A name is read whole, if neither a word nor a dot stands behind it. -/
theorem run_name (name : Name) {rest : Text} (hrest : isWordAt rest.head? = false)
    (hdot : rest.head? ≠ some '.') {a : Attempt} (hafter : a.after = name.text ++ rest)
    {onward : Onward} (honward : onward (a.take name.text rest) ≠ none) :
    Identifier.pattern.run a onward = onward (a.take name.text rest) := by
  rw [Identifier.pattern, run_append]
  cases name with
  | plain name =>
      rw [run_part name hrest hafter, Pattern.optional, run_or, run_append, run_char_none hdot,
        Option.none_or]
      rfl
  | qualified schema name =>
      have hsplit : a.after = schema.text ++ '.' :: (name.text ++ rest) := by
        simpa [Name.text] using hafter
      have htake : a.take (schema.text ++ (['.'] ++ name.text)) rest =
          a.take (Name.qualified schema name).text rest := rfl
      rw [run_part schema rfl hsplit, Pattern.optional, run_or, run_append, run_char rfl,
        run_part name hrest rfl, Attempt.take_take, Attempt.take_take, htake]
      exact Option.or_of_isSome (Option.isSome_iff_ne_none.mpr honward)

/-! ### Aliases in their cells -/

/-- White space is taken together with what stands behind it up to the end of a line. -/
theorem run_behind {bs t rest : Text} (hbs : Blank bs)
    (ht : ∀ c, (t ++ rest).head? = some c → isBlank c = false) (hline : '\n' ∉ t)
    (hrest : ∀ c, rest.head? = some c → c = '\n') {a : Attempt}
    (hafter : a.after = bs ++ (t ++ rest)) :
    (Pattern.optional (blanks ++ allOf inLine)).run a some = some (a.take (bs ++ t) rest) := by
  have hin : ∀ c ∈ t, inLine c = true := fun c hc => bne_iff_ne.mpr fun heq => hline (heq ▸ hc)
  have hout : ∀ c, rest.head? = some c → inLine c = false := by
    intro c hc
    rw [hrest c hc]
    rfl
  rw [Pattern.optional, run_or, run_append, run_blanks hbs ht hafter, run_allOf hin hout rfl,
    Attempt.take_take, Option.some_or]

theorem oneLine_wordy {w : Text} (hw : Wordy w) : '\n' ∉ w :=
  fun hmem => absurd (hw.2 _ hmem) (by decide)

theorem wordy_of_as {as : Text} (h : as.map foldLetter = "AS".toList) : Wordy as :=
  Text.word_of_fold (t := "AS".toList) h (by decide) (by decide)

theorem run_onLine (label : Alias) (h : label.OnLine) {a : Attempt}
    (hafter : a.after = label.text) :
    (Pattern.optional (blanks ++ allOf inLine)).run a some = some (a.take label.text []) := by
  cases label with
  | none =>
      have htake := Attempt.take_nil a
      rw [show a.after = [] from hafter] at htake
      rw [Pattern.optional, run_or, run_append, run_blanks_none (by simp [hafter, Alias.text]),
        Option.none_or]
      exact congrArg some htake.symm
  | short gap w blank wordy =>
      refine run_behind blank (TableClause.head?_wordy wordy []) (oneLine_wordy wordy)
        (by simp) ?_
      rwa [List.append_nil]
  | long gap as gap' w blank reads blank' wordy =>
      have hline : '\n' ∉ as ++ (gap' ++ w) := by
        simp only [List.mem_append, not_or]
        exact ⟨oneLine_wordy (wordy_of_as reads), h, oneLine_wordy wordy⟩
      refine run_behind blank ?_ hline (by simp) ?_
      · rw [List.append_assoc]
        exact TableClause.head?_wordy (wordy_of_as reads) _
      · rwa [List.append_nil]

/-- An alias on another line than its AS is left over. -/
theorem run_offLine {label : Alias} (h : ¬ label.OnLine) :
    ∃ near gap w, label.text = near ++ (gap ++ w) ∧ (∀ c ∈ gap, isBlank c = true) ∧ Wordy w ∧
      ∀ a : Attempt, a.after = label.text →
        (Pattern.optional (blanks ++ allOf inLine)).run a some = some (a.take near (gap ++ w)) := by
  cases label with
  | none | short => exact absurd trivial h
  | long gap as gap' w blank reads blank' wordy =>
      obtain ⟨u, v, rfl, hu⟩ := List.eq_append_cons_of_mem (Decidable.not_not.mp h)
      have hline : '\n' ∉ as ++ u := by
        simp only [List.mem_append, not_or]
        exact ⟨oneLine_wordy (wordy_of_as reads), hu⟩
      refine ⟨gap ++ (as ++ u), '\n' :: v, w, by simp [Alias.text], fun c hc =>
        blank'.blank c (List.mem_append_right u hc), wordy, fun a hafter => ?_⟩
      refine run_behind blank ?_ hline (by rintro _ ⟨⟩; rfl) ?_
      · rw [List.append_assoc]
        exact TableClause.head?_wordy (wordy_of_as reads) _
      · simpa [Alias.text] using hafter

theorem edge_label (label : Alias) :
    isWordAt label.text.head? = false ∧ label.text.head? ≠ some '.' := by
  have hblank : ∀ {gap : Text}, Blank gap → ∀ t, isWordAt (gap ++ t).head? = false ∧
      (gap ++ t).head? ≠ some '.' := by
    intro gap hgap t
    obtain ⟨b, more, hhead, hb⟩ := hgap.head t
    rw [hhead]
    refine ⟨Unicode.isWord_of_isBlank hb, ?_⟩
    rintro ⟨⟩
    cases hb
  cases label with
  | none => exact ⟨rfl, by simp [Alias.text]⟩
  | short gap w blank wordy => exact hblank blank w
  | long gap as gap' w blank reads blank' wordy => exact hblank blank _

/-! ### Items in their cells -/

/-- A name is replaced together with the white space in front of it and what is taken behind it. -/
theorem replaceFrom_name {gap : Text} (hgap : ∀ c ∈ gap, isBlank c = true) (name : Name)
    (near far : Text)
    (hedge : isWordAt (near ++ far).head? = false ∧ (near ++ far).head? ≠ some '.')
    (hbehind : ∀ a : Attempt, a.after = near ++ far →
      (Pattern.optional (blanks ++ allOf inLine)).run a some = some (a.take near far))
    (before : Text) :
    reference.replaceFrom (·.group 0) before (gap ++ (name.text ++ (near ++ far))) =
      name.text ++ reference.replaceFrom (·.group 0)
        ((gap ++ (name.text ++ near)).reverse ++ before) far := by
  have hmatch : ∀ t, t = gap ++ (name.text ++ (near ++ far)) →
      reference.matchAt? ⟨before, t⟩ = some ⟨⟨before, t⟩, (gap ++ (name.text ++ near)).length,
        [(gap.length, gap.length + name.text.length)]⟩ := by
    rintro _ rfl
    rw [matchAt?, reference, run_append, run_append, maybeBlanks,
      run_allOf hgap (head?_name name _) rfl, run_group,
      run_name name hedge.1 hedge.2 rfl (by rw [hbehind _ rfl]; exact Option.some_ne_none _),
      hbehind _ rfl]
    simp [Attempt.close, Nat.add_assoc]
  have hsplit : gap ++ (name.text ++ (near ++ far)) = (gap ++ (name.text ++ near)) ++ far := by simp
  rw [hsplit, replaceFrom_hit (hmatch _ hsplit.symm) ?_ rfl]
  · rw [← hsplit]
    simp [Hit.group]
  · simp [name.ne_nil]

namespace Item

variable (item : Item)

theorem replaceAll_onLine (h : item.label.OnLine) :
    reference.replaceAll (·.group 0) item.text = item.name.text := by
  have hname := replaceFrom_name item.blank item.name item.label.text []
    (by rw [List.append_nil]; exact edge_label item.label)
    (fun a hafter => run_onLine item.label h (by rwa [List.append_nil] at hafter)) []
  rwa [List.append_nil, replaceFrom_nil, List.append_nil] at hname

/-- An alias on another line than its AS is glued to the name. -/
theorem replaceAll_offLine (h : ¬ item.label.OnLine) :
    ∃ w, Wordy w ∧ reference.replaceAll (·.group 0) item.text = item.name.text ++ w := by
  obtain ⟨near, gap, w, htext, hgap, hw, hrun⟩ := run_offLine h
  have hname := replaceFrom_name item.blank item.name near (gap ++ w)
    (htext ▸ edge_label item.label) (fun a hafter => hrun a (hafter.trans htext.symm)) []
  have halias := replaceFrom_name hgap (.plain (.word w hw)) [] []
    (edge_label .none) (fun a hafter => run_onLine .none trivial hafter)
    ((item.gap ++ (item.name.text ++ near)).reverse ++ [])
  refine ⟨w, hw, ?_⟩
  rw [replaceAll_eq_replaceFrom, text, htext, hname]
  have hword : gap ++ w = gap ++ ((Name.plain (.word w hw)).text ++ ([] ++ [])) := by
    simp [Name.text, Part.text]
  rw [hword, halias, replaceFrom_nil, List.append_nil]
  rfl

theorem comma_not_mem (h : ',' ∉ item.name.text) : ',' ∉ item.text := by
  have hblank : ∀ {gap : Text}, (∀ c ∈ gap, isBlank c = true) → ',' ∉ gap := fun hgap hmem =>
    absurd (hgap _ hmem) (by decide)
  have hword : ∀ {w : Text}, Wordy w → ',' ∉ w := fun hw hmem => absurd (hw.2 _ hmem) (by decide)
  have hlabel : ',' ∉ item.label.text := by
    cases item.label with
    | none => exact List.not_mem_nil
    | short gap w blank wordy =>
        simp [Alias.text, hblank blank.blank, hword wordy]
    | long gap as gap' w blank reads blank' wordy =>
        simp [Alias.text, hblank blank.blank, hword (wordy_of_as reads), hblank blank'.blank,
          hword wordy]
  simp [text, hblank item.blank, h, hlabel]

/-- An item comes out as its name just where it is whole. -/
theorem found_eq_iff : item.found = [item.name.text] ↔ item.Whole := by
  constructor
  · intro hfound
    have hcomma : ',' ∉ item.name.text := by
      intro hmem
      obtain ⟨u, v, hsplit⟩ := List.append_of_mem hmem
      have htext : item.text = (item.gap ++ u) ++ ',' :: (v ++ item.label.text) := by
        simp [text, hsplit]
      have hlength := congrArg List.length hfound
      rw [found, htext, List.splitOn_append_cons_self, List.length_map, List.length_append]
        at hlength
      have hleft := List.length_pos_iff.mpr (List.splitOn_ne_nil ',' (item.gap ++ u))
      have hright := List.length_pos_iff.mpr (List.splitOn_ne_nil ',' (v ++ item.label.text))
      rw [List.length_singleton] at hlength
      omega
    refine ⟨hcomma, ?_⟩
    by_contra hoff
    obtain ⟨w, hw, hreplace⟩ := item.replaceAll_offLine hoff
    rw [found, List.splitOn_eq_singleton (item.comma_not_mem hcomma), List.map_singleton,
      hreplace] at hfound
    exact hw.1 (List.append_right_eq_self.mp (List.cons.inj hfound).1)
  · intro hwhole
    rw [found, List.splitOn_eq_singleton (item.comma_not_mem hwhole.name), List.map_singleton,
      item.replaceAll_onLine hwhole.label]

end Item

/-! ### The tables of a statement -/

theorem splitOn_spelled {items : List Item} (hne : items ≠ []) :
    (spelled items).splitOn ',' = items.flatMap fun item => item.text.splitOn ',' := by
  induction items with
  | nil => exact absurd rfl hne
  | cons item items ih =>
      cases items with
      | nil => simp [spelled_singleton]
      | cons next items =>
          rw [spelled_cons _ (List.cons_ne_nil _ _), List.splitOn_append_cons_self,
            ih (List.cons_ne_nil _ _)]
          rfl

/-- What the items of rows come to, as far as it has a letter, without the rows that are the start
of a subquery. -/
def entries (f : Item → List Text) (rows : List (List Item)) : List Text :=
  rows.flatMap fun items =>
    if subquery.occursIn (spelled items) then [] else (items.flatMap f).filter Text.hasLetter

theorem tables_spelled (items : List Item) : TableClause.tables (spelled items) =
    if subquery.occursIn (spelled items) then []
    else (items.flatMap Item.found).filter Text.hasLetter := by
  cases items with
  | nil => decide +kernel
  | cons item items =>
      rw [TableClause.tables, TableClause.names, splitOn_spelled (List.cons_ne_nil _ _),
        List.map_flatMap]
      split <;> rfl

theorem flatMap_tables (rows : List (List Item)) :
    (rows.map spelled).flatMap TableClause.tables = entries Item.found rows := by
  rw [List.flatMap_map, entries]
  exact congrArg (rows.flatMap ·) (funext tables_spelled)

/-- No name ends within its back-quotes. -/
theorem name_ne_unclosed (name : Name) : name.text ≠ "\x60a".toList := by
  intro h
  cases name with
  | plain name =>
      cases name with
      | word w wordy =>
          obtain rfl : w = "\x60a".toList := h
          exact absurd (wordy.2 '\x60' (by decide)) (by decide)
      | quoted inner nonempty unquoted =>
          have hlast : ((backquote :: inner) ++ [backquote]).getLast? = some 'a' :=
            congrArg List.getLast? h
          rw [List.getLast?_concat] at hlast
          cases hlast
  | qualified schema name =>
      have hdot : '.' ∈ (Name.qualified schema name).text := by simp [Name.text]
      rw [h] at hdot
      revert hdot
      decide

end NameList

open NameList (Item Name entries spelled)

/-- The lists of a statement are rows of items, and its tables are what the items come to. An item
comes to its name just where the name has no comma and the alias is on the line of its AS. -/
theorem tablesOf_listed {t : Text} (hdefines : DefinitionVerb.ofStatement? t = none)
    (hloads : Extraction.loadOpening.occursIn (Extraction.scanned t) = false) :
    (∃ rows : List (List Item), rows.map spelled = TableClause.lists (Extraction.scanned t)) ∧
      ∀ rows : List (List Item), rows.map spelled = TableClause.lists (Extraction.scanned t) →
        tablesOf t = (entries Item.found rows).eraseDups ∧
          ∀ items ∈ rows, ∀ item ∈ items, item.found = [item.name.text] ↔ item.Whole := by
  refine ⟨NameList.exists_rows _ _, fun rows hrows => ⟨?_, fun _ _ item _ => item.found_eq_iff⟩⟩
  rw [tablesOf, Extraction.ofStatement, hdefines]
  simp only []
  rw [Extraction.tables_ofClauses_eq, if_neg (Bool.not_eq_true _ ▸ hloads), ← hrows,
    NameList.flatMap_tables]

/-- Names of all forms with aliases of all forms are found whole. -/
theorem tablesOf_listed_aliases :
    let t := "select * from \x60d b\x60.t\nAs\tx,\n u\ny,7".toList
    let word (w : String) (h : w.toList ≠ [] ∧ ∀ c ∈ w.toList, isWord c = true) : NameList.Part :=
      .word w.toList h
    let items : List Item :=
      [⟨[], by decide,
          .qualified (.quoted "d b".toList (by decide) (by decide)) (word "t" (by decide)),
          .long ['\n'] "As".toList ['\t'] ['x'] ⟨by decide, by decide⟩ (by decide)
            ⟨by decide, by decide⟩ ⟨by decide, by decide⟩⟩,
        ⟨"\n ".toList, by decide, .plain (word "u" (by decide)),
          .short ['\n'] ['y'] ⟨by decide, by decide⟩ ⟨by decide, by decide⟩⟩,
        ⟨[], by decide, .plain (word "7" (by decide)), .none⟩]
    tablesOf t = (entries Item.found [items]).eraseDups ∧
      ∀ item ∈ items, item.found = [item.name.text] := by
  intro t word items
  have hlisted := (tablesOf_listed (t := t) (by decide +kernel) (by decide +kernel)).2 [items]
    (by decide +kernel)
  refine ⟨hlisted.1, fun item hitem => ?_⟩
  refine (hlisted.2 items List.mem_cons_self item hitem).mpr ?_
  simp only [items, List.mem_cons, List.not_mem_nil, or_false] at hitem
  obtain rfl | rfl | rfl := hitem
  · exact ⟨by decide, show '\n' ∉ ['\t'] by decide⟩
  · exact ⟨by decide, trivial⟩
  · exact ⟨by decide, trivial⟩

/-- A comma in a quoted name leaves entries that are no names, and an alias below its AS an entry
that is nowhere in the statement. -/
theorem tablesOf_not_listed :
    let cut := "select * from \x60a,b\x60".toList
    let glued := "select * from t as\nu, v".toList
    (∀ t ∈ [cut, glued], DefinitionVerb.ofStatement? t = none ∧
      Extraction.loadOpening.occursIn (Extraction.scanned t) = false) ∧
    (∃ entry ∈ tablesOf cut, ∀ name : Name, name.text ≠ entry) ∧
      ∃ entry ∈ tablesOf glued, ¬ entry <:+: Extraction.scanned glued := by
  intro cut glued
  refine ⟨by decide +kernel, ⟨"\x60a".toList, by decide +kernel, NameList.name_ne_unclosed⟩, ?_⟩
  exact ⟨"tu".toList, by decide +kernel, by decide +kernel⟩

end QueryDigest
