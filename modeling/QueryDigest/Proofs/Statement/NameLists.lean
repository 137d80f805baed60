import QueryDigest.Proofs.Statement.TableClauses
import QueryDigest.Proofs.Text.Lines

/-!
Lists of names in a clause. The list takes in everything up to the last name, aliases in front of
commas included, and gives the names back one by one, without aliases and without those that cannot
be tables.
-/

namespace QueryDigest

open Unicode (foldLetter isBlank isWord)

namespace Pattern

/-- A round that takes a text in one way only is the first of several. -/
theorem run_many_take {p : Pattern} {u rest : Text} (hne : u ≠ []) {a : Attempt}
    (hafter : a.after = u ++ rest)
    (hround : ∀ onward, p.run a onward = onward (a.take u rest)) (onward : Onward) :
    (Pattern.many p).run a onward =
      ((Pattern.many p).run (a.take u rest) onward).or (onward a) := by
  obtain ⟨c, u, rfl⟩ := List.exists_cons_of_ne_nil hne
  have hmoves : a.passed < (a.take (c :: u) rest).passed := by
    rw [Attempt.take_passed, List.length_cons]
    omega
  have hahead := rounds_ahead (local_run p) (u ++ rest) (a.take (c :: u) rest).after
    (a := a.take (c :: u) rest) (by simp) (Nat.le_refl _) onward
  rw [run, hafter, List.cons_append, rounds_cons, hround, if_pos hmoves, hahead]
  rfl

end Pattern

namespace TableClause

open Pattern

/-! ### Rows of names -/

/-- What stands behind a name: nothing, or an alias, in the long form behind AS. -/
inductive Label (α : Type) where
  | none
  | short (name : α)
  | long (name : α)

namespace Label

variable {α β : Type}

def map (f : α → β) : Label α → Label β
  | none => none
  | short name => short (f name)
  | long name => long (f name)

def text : Label Text → Text
  | none => []
  | short name => ' ' :: name
  | long name => ' ' :: ("AS".toList ++ ' ' :: name)

/-- The property holds of the alias, if there is one. -/
def Holds (P : α → Prop) : Label α → Prop
  | none => True
  | short name | long name => P name

theorem holds_map {P : β → Prop} {f : α → β} (h : ∀ x, P (f x)) (label : Label α) :
    (label.map f).Holds P := by
  cases label with
  | none => trivial
  | short x | long x => exact h x

end Label

/-- A word as it may stand in a list. -/
def Wordy (w : Text) : Prop :=
  w ≠ [] ∧ ∀ c ∈ w, isWord c = true

theorem Wordy.append {w v : Text} (hw : Wordy w) (hv : ∀ c ∈ v, isWord c = true) :
    Wordy (w ++ v) :=
  ⟨List.append_ne_nil_of_left_ne_nil hw.1 v, List.forall_mem_append.mpr ⟨hw.2, hv⟩⟩

theorem wordy_as : Wordy "AS".toList :=
  ⟨by decide, by decide⟩

/-- A name in a list, with the white space in front of it and the alias behind it. -/
structure Entry where
  gap : Text
  name : Text
  label : Label Text

def Entry.text (e : Entry) : Text :=
  e.gap ++ (e.name ++ e.label.text)

structure Entry.Readable (e : Entry) : Prop where
  gap : ∀ c ∈ e.gap, isBlank c = true
  name : Wordy e.name
  label : e.label.Holds Wordy

/-- What stands between the commas of a list, which ends with its last name. -/
def cells : List Entry → List Text
  | [] => []
  | [e] => [e.gap ++ e.name]
  | e :: f :: more => e.text :: cells (f :: more)

def row (entries : List Entry) : Text :=
  Text.join [','] (cells entries)

/-- A list of names behind the first one. -/
def behindFirst : Entry → List Entry → Text
  | _, [] => []
  | e, f :: more => e.label.text ++ ',' :: (f.gap ++ (f.name ++ behindFirst f more))

theorem cells_ne_nil (e : Entry) (more : List Entry) : cells (e :: more) ≠ [] := by
  cases more <;> exact List.cons_ne_nil _ _

theorem row_cons_cons (e f : Entry) (more : List Entry) : row (e :: f :: more) =
    e.text ++ ',' :: row (f :: more) :=
  Text.join_cons (cells_ne_nil f more) [',']

theorem row_cons (e : Entry) (more : List Entry) :
    row (e :: more) = e.gap ++ (e.name ++ behindFirst e more) := by
  induction more generalizing e with
  | nil => simp [row, cells, Text.join, behindFirst]
  | cons f more ih =>
      rw [row_cons_cons, ih, behindFirst]
      simp [Entry.text]

/-- With the last alias behind it, a row is its entries between commas. -/
theorem row_append_label {entries : List Entry} (hne : entries ≠ []) :
    row entries ++ (entries.getLast hne).label.text = Text.join [','] (entries.map Entry.text) := by
  induction entries with
  | nil => exact absurd rfl hne
  | cons e more ih =>
      cases more with
      | nil => simp [row, cells, Text.join, Entry.text]
      | cons f more =>
          have hmore := ih (List.cons_ne_nil f more)
          rw [row_cons_cons, List.getLast_cons (List.cons_ne_nil f more), List.append_assoc,
            List.cons_append, hmore]
          exact (Text.join_cons (List.cons_ne_nil _ _) [',']).symm

/-- The white space in front of the first name stands in front of the row. -/
theorem row_gap (gap name : Text) (label : Label Text) (more : List Entry) :
    row (⟨gap, name, label⟩ :: more) = gap ++ row (⟨[], name, label⟩ :: more) := by
  have hbehind : behindFirst ⟨gap, name, label⟩ more = behindFirst ⟨[], name, label⟩ more := by
    cases more <;> rfl
  rw [row_cons, row_cons, hbehind]
  rfl

/-! ### The characters of a list -/

theorem chars_label {label : Label Text} (hlabel : label.Holds Wordy) :
    ∀ c ∈ label.text, isWord c = true ∨ c = ' ' := by
  have hword : ∀ w, Wordy w → ∀ c ∈ ' ' :: w, isWord c = true ∨ c = ' ' := fun w hw =>
    List.forall_mem_cons.mpr ⟨Or.inr rfl, fun c hc => Or.inl (hw.2 c hc)⟩
  cases label with
  | none => exact List.forall_mem_nil _
  | short w => exact hword w hlabel
  | long w =>
      have has : ∀ c ∈ ' ' :: "AS".toList, isWord c = true ∨ c = ' ' :=
        hword _ wordy_as
      exact List.forall_mem_append.mpr ⟨has, hword w hlabel⟩

theorem chars_entry {e : Entry} (he : e.Readable) {label : Label Text}
    (hlabel : label.Holds Wordy) :
    ∀ c ∈ e.gap ++ (e.name ++ label.text), isWord c = true ∨ isBlank c = true := by
  refine List.forall_mem_append.mpr ⟨fun c hc => Or.inr (he.gap c hc),
    List.forall_mem_append.mpr ⟨fun c hc => Or.inl (he.name.2 c hc), fun c hc => ?_⟩⟩
  obtain hword | rfl := chars_label hlabel c hc
  · exact Or.inl hword
  · exact Or.inr rfl

theorem chars_cells {entries : List Entry} (h : ∀ e ∈ entries, e.Readable) :
    ∀ cell ∈ cells entries, ∀ c ∈ cell, isWord c = true ∨ isBlank c = true := by
  induction entries with
  | nil => exact List.forall_mem_nil _
  | cons e entries ih =>
      have he := h e List.mem_cons_self
      cases entries with
      | nil =>
          have hcell := @chars_entry e he .none trivial
          rw [Label.text, List.append_nil] at hcell
          exact List.forall_mem_singleton.mpr hcell
      | cons f more =>
          exact List.forall_mem_cons.mpr ⟨chars_entry he he.label,
            ih fun g hg => h g (List.mem_cons_of_mem e hg)⟩

theorem chars_row {entries : List Entry} (h : ∀ e ∈ entries, e.Readable) :
    ∀ c ∈ row entries, isWord c = true ∨ isBlank c = true ∨ c = ',' := by
  have hcells := chars_cells h
  rw [row]
  generalize cells entries = cs at hcells ⊢
  induction cs with
  | nil => exact List.forall_mem_nil _
  | cons cell others ih =>
      have hcell : ∀ c ∈ cell, isWord c = true ∨ isBlank c = true ∨ c = ',' := fun c hc =>
        (hcells cell List.mem_cons_self c hc).imp_right Or.inl
      have hothers := ih fun cell' hcell' => hcells cell' (List.mem_cons_of_mem cell hcell')
      cases others with
      | nil =>
          rw [Text.join, List.intercalate_singleton]
          exact hcell
      | cons other others =>
          rw [Text.join_cons (List.cons_ne_nil _ _)]
          exact List.forall_mem_append.mpr ⟨hcell,
            List.forall_mem_cons.mpr ⟨Or.inr (Or.inr rfl), hothers⟩⟩

theorem chars_list {entries : List Entry} (h : ∀ e ∈ entries, e.Readable) {label : Label Text}
    (hlabel : label.Holds Wordy) : ∀ c ∈ row entries ++ label.text,
      isWord c = true ∨ isBlank c = true ∨ c ∈ "*(),=".toList := by
  refine List.forall_mem_append.mpr ⟨fun c hc => ?_, fun c hc => ?_⟩
  · obtain hword | hblank | rfl := chars_row h c hc
    · exact Or.inl hword
    · exact Or.inr (Or.inl hblank)
    · decide
  · obtain hword | rfl := chars_label hlabel c hc
    · exact Or.inl hword
    · decide

/-! ### The end of a list -/

theorem endsList_nil : EndsList [] :=
  ⟨rfl, by decide, by decide⟩

theorem edge_label (label : Label Text) {rest : Text} (hrest : isWordAt rest.head? = false)
    (hdot : rest.head? ≠ some '.') : isWordAt (label.text ++ rest).head? = false ∧
      (label.text ++ rest).head? ≠ some '.' := by
  cases label with
  | none => exact ⟨hrest, hdot⟩
  | short | long => exact ⟨rfl, by simp [Label.text]⟩

theorem endsList_label {label : Label Text} (hlabel : label.Holds Wordy) {rest : Text}
    (hrest : EndsList rest) : EndsList (label.text ++ rest) := by
  obtain ⟨hedge, hdot⟩ := edge_label label hrest.edge hrest.dot
  refine ⟨hedge, hdot, fun hmem => ?_⟩
  obtain hmem | hmem := List.mem_append.mp hmem
  · exact (chars_label hlabel _ hmem).elim (absurd · (by decide)) (absurd · (by decide))
  · exact hrest.comma hmem

theorem edge_behindFirst (e : Entry) (more : List Entry) {rest : Text} (hrest : EndsList rest) :
    isWordAt (behindFirst e more ++ rest).head? = false ∧
      (behindFirst e more ++ rest).head? ≠ some '.' := by
  cases more with
  | nil => exact ⟨hrest.edge, hrest.dot⟩
  | cons f more =>
      rw [behindFirst, List.append_assoc]
      exact edge_label e.label rfl (by simp)

/-! ### One round of a list -/

theorem head?_wordy {w : Text} (hw : Wordy w) (more : Text) :
    ∀ c, (w ++ more).head? = some c → isBlank c = false := by
  intro c hc
  have hhead := Text.isWordAt_head? hw.1 hw.2 more
  rw [hc] at hhead
  exact Unicode.isBlank_of_isWord hhead

theorem run_space {w more : Text} (hw : Wordy w) {a : Attempt}
    (hafter : a.after = ' ' :: (w ++ more)) (onward : Onward) :
    blanks.run a onward = onward (a.take [' '] (w ++ more)) :=
  run_blank (head?_wordy hw more) hafter onward

theorem run_word {w more : Text} (hw : Wordy w) (hmore : isWordAt more.head? = false)
    {a : Attempt} (hafter : a.after = w ++ more) (onward : Onward) :
    word.run a onward = onward (a.take w more) :=
  run_someOf hw.1 hw.2 (Text.not_word_of_edge hmore) hafter onward

/-- An alias in front of a comma is not taken for AS. -/
theorem run_as_none {w rest : Text} (hw : Wordy w) {a : Attempt}
    (hafter : a.after = w ++ ',' :: rest) (onward : Onward) :
    (keyword "AS".toList ++ blanks).run a onward = none := by
  cases hrun : (keyword "AS".toList ++ blanks).run a onward with
  | none => rfl
  | some b =>
      rw [run_append] at hrun
      obtain ⟨m, more, hsplit, hm, hblank⟩ := run_keyword_eq_some hrun
      rw [blanks, someOf, run_append, run_one, Option.bind_eq_some_iff] at hblank
      obtain ⟨c, hnext, _⟩ := hblank
      obtain ⟨d, behind, hd, hblank, _⟩ := Attempt.next?_eq_some.mp hnext
      obtain rfl : more = d :: behind := hd
      have hword := (Text.word_of_fold hm (by decide) (by decide)).2
      have hedge : isWordAt (d :: behind).head? = false := Unicode.isWord_of_isBlank hblank
      have hends := hafter.symm.trans hsplit
      obtain rfl : w = m := Text.word_unique hends hw.2 hword rfl hedge
      obtain rfl := (List.cons.inj (List.append_cancel_left hends)).1
      exact absurd hblank (by decide)

theorem run_comma {p : Pattern} {rest : Text} {a : Attempt} (hafter : a.after = ',' :: rest)
    (onward : Onward) : (char ',' ++ p).run a onward = p.run (a.take [','] rest) onward := by
  rw [run_append, run_char hafter]

theorem run_comma_none {p : Pattern} {a : Attempt} (h : a.after.head? ≠ some ',')
    (onward : Onward) : (char ',' ++ p).run a onward = none := by
  rw [run_append, run_char_none h]

/-- The label in front of a comma is passed over in one way. -/
theorem run_label {label : Label Text} (hlabel : label.Holds Wordy) {rest : Text} {a : Attempt}
    (hafter : a.after = label.text ++ ',' :: rest) (p : Pattern) (onward : Onward) :
    (Pattern.optional otherName ++ (char ',' ++ p)).run a onward =
      p.run (a.take (label.text ++ [',']) rest) onward := by
  rw [run_append, Pattern.optional, run_or]
  cases label with
  | none =>
      have hother : ∀ onward, otherName.run a onward = none := by
        intro onward
        rw [otherName, run_append, run_append, blanks, someOf, run_append]
        refine run_one_none (fun c hc => ?_) _
        rw [hafter] at hc
        cases hc
        decide
      rw [hother, Option.none_or]
      exact run_comma hafter onward
  | short w =>
      have hspace : a.after = ' ' :: (w ++ ',' :: rest) := hafter
      have hempty : (char ',' ++ p).run a onward = none :=
        run_comma_none (by simp [hspace]) onward
      have hother : otherName.run a (fun b => (char ',' ++ p).run b onward) =
          p.run (a.take (' ' :: (w ++ [','])) rest) onward := by
        rw [otherName, run_append, run_append, run_space hlabel hspace, Pattern.optional, run_or,
          run_as_none hlabel rfl, Option.none_or]
        refine (run_word hlabel rfl rfl _).trans ?_
        rw [run_comma rfl, Attempt.take_take, Attempt.take_take]
        rfl
      rw [hother]
      exact (congrArg (Option.or _) hempty).trans (Option.or_none)
  | long w =>
      have hspace : a.after = ' ' :: ("AS".toList ++ ' ' :: (w ++ ',' :: rest)) := by
        simpa [Label.text] using hafter
      have hempty : (char ',' ++ p).run a onward = none :=
        run_comma_none (by simp [hspace]) onward
      have hother : otherName.run a (fun b => (char ',' ++ p).run b onward) =
          p.run (a.take (' ' :: ("AS".toList ++ ' ' :: (w ++ [',']))) rest) onward := by
        rw [otherName, run_append, run_append, run_space wordy_as hspace, Pattern.optional, run_or,
          run_append, run_keyword rfl rfl, run_space hlabel rfl]
        -- Without AS, the alias would be AS itself, with no comma behind it.
        have hshort : word.run (a.take [' '] ("AS".toList ++ ' ' :: (w ++ ',' :: rest)))
            (fun b => (char ',' ++ p).run b onward) = none := by
          rw [run_word wordy_as rfl rfl]
          exact run_comma_none (by simp) onward
        refine (congrArg (Option.or _) hshort).trans (Option.or_none.trans ?_)
        rw [run_word hlabel rfl rfl, run_comma rfl]
        simp only [Attempt.take_take]
        rfl
      rw [hother]
      exact (congrArg (Option.or _) hempty).trans (Option.or_none.trans (by simp [Label.text]))

/-! ### The whole of a list -/

/-- One round of a list: a comma and a name, with the alias of the name before. -/
def round : Pattern :=
  Pattern.optional otherName ++ (char ',' ++ (maybeBlanks ++ Identifier.pattern))

theorem run_nameList_rounds (a : Attempt) (onward : Onward) :
    nameList.run a onward = Identifier.pattern.run a fun b => (Pattern.many round).run b onward :=
  rfl

theorem run_round {label : Label Text} (hlabel : label.Holds Wordy) {e : Entry} (he : e.Readable)
    {rest : Text} (hedge : isWordAt rest.head? = false ∧ rest.head? ≠ some '.') {a : Attempt}
    (hafter : a.after = label.text ++ ',' :: (e.gap ++ (e.name ++ rest))) (onward : Onward) :
    round.run a onward = onward (a.take (label.text ++ ',' :: (e.gap ++ e.name)) rest) := by
  rw [round, run_label hlabel hafter, run_append, maybeBlanks,
    run_allOf he.gap (head?_wordy he.name rest) rfl,
    run_identifier he.name.1 he.name.2 hedge.1 hedge.2 rfl, Attempt.take_take, Attempt.take_take]
  simp

theorem run_rounds {e : Entry} {more : List Entry} (he : ∀ f ∈ e :: more, f.Readable) {rest : Text}
    (hrest : EndsList rest) {a b : Attempt} {onward : Onward}
    (hafter : a.after = behindFirst e more ++ rest)
    (honward : onward (a.take (behindFirst e more) rest) = some b) :
    (Pattern.many round).run a onward = some b := by
  induction more generalizing e a with
  | nil =>
      obtain rfl : a.after = rest := hafter
      have hround : ∀ onward, round.run a onward = none := by
        intro onward
        rw [round, run_append]
        refine run_none fun c ⟨taken, htaken, _, _⟩ => ?_
        refine run_comma_none (fun hhead => hrest.comma ?_) _
        rw [htaken]
        exact List.mem_append_right _ (List.mem_of_mem_head? hhead)
      rw [run_many_none hround]
      exact honward
  | cons f more ih =>
      have hsplit : a.after = (e.label.text ++ ',' :: (f.gap ++ f.name)) ++
          (behindFirst f more ++ rest) := by
        rw [hafter, behindFirst]
        simp
      rw [run_many_take (by simp) hsplit]
      · rw [ih (fun g hg => he g (List.mem_cons_of_mem e hg)) rfl, Option.some_or]
        rw [← honward, Attempt.take_take, behindFirst]
        simp
      · refine run_round (he e List.mem_cons_self).label (he f (by simp))
          (edge_behindFirst f more hrest) ?_
        rw [hsplit]
        simp

/-- A list of names is read to its last name. -/
theorem run_row {e : Entry} {more : List Entry} (he : ∀ f ∈ e :: more, f.Readable)
    (hgap : e.gap = []) {rest : Text} (hrest : EndsList rest) {a b : Attempt} {onward : Onward}
    (hafter : a.after = row (e :: more) ++ rest)
    (honward : onward (a.take (row (e :: more)) rest) = some b) :
    nameList.run a onward = some b := by
  have hname := (he e List.mem_cons_self).name
  have hedge := edge_behindFirst e more hrest
  rw [row_cons, hgap, List.nil_append] at hafter honward
  rw [List.append_assoc] at hafter
  rw [run_nameList_rounds, run_identifier hname.1 hname.2 hedge.1 hedge.2 hafter]
  refine run_rounds he hrest rfl ?_
  rwa [Attempt.take_take]

theorem clause_row {anchor gap : Text} {e : Entry} {more : List Entry}
    (hanchor : ∃ k ∈ anchors, anchor.map foldLetter = k.map foldLetter)
    (hgap : ∃ blanks, blanks ≠ [] ∧ (∀ c ∈ blanks, isBlank c = true) ∧
      (gap = blanks ∨ gap = blanks ++ ['(']))
    (he : ∀ f ∈ e :: more, f.Readable) (hfirst : e.gap = []) {rest : Text}
    (hrest : EndsList rest) : Clause anchor gap (row (e :: more)) rest where
  anchor := hanchor
  gap := hgap
  word := by
    have hname := (he e List.mem_cons_self).name
    rw [row_cons, hfirst, List.nil_append, List.append_assoc]
    exact Text.isWordAt_head? hname.1 hname.2 _
  reads := run_row he hfirst hrest

/-! ### The names of a list -/

theorem inLine_label {label : Label Text} (hlabel : label.Holds Wordy) :
    ∀ c ∈ label.text, inLine c = true := by
  intro c hc
  refine bne_iff_ne.mpr ?_
  rintro rfl
  obtain hword | hspace := chars_label hlabel _ hc
  · revert hword
    decide
  · cases hspace

theorem run_behindName {label : Label Text} (hlabel : label.Holds Wordy) {a : Attempt}
    (hafter : a.after = label.text) :
    (Pattern.optional (blanks ++ allOf inLine)).run a some = some (a.take label.text []) := by
  have htaken : ∀ {x more : Text}, Wordy x → label.text = ' ' :: (x ++ more) →
      (blanks ++ allOf inLine).run a some = some (a.take label.text []) := by
    intro x more hx htext
    have hline := inLine_label hlabel
    rw [htext] at hafter hline ⊢
    rw [run_append, run_space hx hafter, run_allOf (fun c hc => hline c (List.mem_cons_of_mem _ hc))
      (by simp) (List.append_nil _).symm, Attempt.take_take]
    rfl
  rw [Pattern.optional, run_or]
  cases label with
  | none =>
      have hblanks : (blanks ++ allOf inLine).run a some = none := by
        rw [run_append, blanks, someOf, run_append]
        exact run_one_none (by simp [hafter, Label.text]) _
      rw [hblanks, Option.none_or, ← (show a.after = [] from hafter)]
      exact congrArg some (Attempt.take_nil a).symm
  | short w => rw [@htaken w [] hlabel (by simp [Label.text]), Option.some_or]
  | long w =>
      rw [htaken wordy_as rfl, Option.some_or]

/-- A name in a list is read with the white space in front of it and the alias behind it. -/
theorem replaceAll_reference {e : Entry} (he : e.Readable) {label : Label Text}
    (hlabel : label.Holds Wordy) :
    reference.replaceAll (·.group 0) (e.gap ++ (e.name ++ label.text)) = e.name := by
  have hedge := @edge_label label [] rfl (by simp)
  rw [List.append_nil] at hedge
  have hmatch : reference.matchAt? (.start (e.gap ++ (e.name ++ label.text))) =
      some ⟨.start (e.gap ++ (e.name ++ label.text)), (e.gap ++ (e.name ++ label.text)).length,
        [(e.gap.length, e.gap.length + e.name.length)]⟩ := by
    rw [matchAt?, reference, run_append, run_append, maybeBlanks,
      run_allOf he.gap (head?_wordy he.name label.text) rfl, run_group,
      run_identifier he.name.1 he.name.2 hedge.1 hedge.2 rfl, run_behindName hlabel rfl]
    simp [Attempt.close, Nat.add_assoc]
  have hne : e.gap ++ (e.name ++ label.text) ≠ [] := by simp [he.name.1]
  rw [replaceAll_whole hmatch hne rfl]
  simp [Hit.group, Cursor.start]

/-- A text starts a subquery just where its first word is SELECT. -/
theorem subquery_front {w rest : Text} (hw : Wordy w) (hrest : isWordAt rest.head? = false) :
    subquery.occursIn (w ++ rest) = (w.map foldLetter == "SELECT".toList) := by
  have hanchored : subquery.Anchored := (anchored_textStart.append _).append wordEdge
  have hrun : (subquery.matchAt? (.start (w ++ rest))).isSome = true ↔
      w.map foldLetter = "SELECT".toList := by
    constructor
    · intro hsome
      obtain ⟨h, hmatch⟩ := Option.isSome_iff_exists.mp hsome
      obtain ⟨b, hrun, _⟩ := matchAt?_eq_some hmatch
      obtain ⟨m, more, hafter, hm, hedge⟩ := run_keyword_eq_some hrun
      obtain ⟨hne, hword⟩ := Text.word_of_fold hm (by decide) (by decide)
      obtain ⟨hedge, _⟩ := run_wordEdge_some.mp hedge
      change isWordAt (m.reverse ++ []).head? ≠ isWordAt more.head? at hedge
      rw [Text.isWordAt_reverse hne hword] at hedge
      obtain rfl : w = m :=
        Text.word_unique hafter hw.2 hword hrest (Bool.eq_false_iff.mpr hedge.symm)
      exact hm
    · intro hselect
      rw [matchAt?]
      change Option.isSome (Option.map _ ((keyword "SELECT".toList).run
        (.start (.start (w ++ rest))) _)) = true
      rw [run_keyword hselect rfl, run_wordEdge]
      · rfl
      · change isWordAt (w.reverse ++ []).head? ≠ isWordAt rest.head?
        rw [Text.isWordAt_reverse hw.1 hw.2, hrest]
        decide
  rw [occursIn, find_anchored hanchored, Bool.eq_iff_iff, hrun, beq_iff_eq]

theorem names_cells {entries : List Entry} (h : ∀ e ∈ entries, e.Readable) :
    (cells entries).map (reference.replaceAll (·.group 0)) = entries.map Entry.name := by
  induction entries with
  | nil => rfl
  | cons e entries ih =>
      have he := h e List.mem_cons_self
      cases entries with
      | nil =>
          have hcell := @replaceAll_reference e he .none trivial
          rw [Label.text, List.append_nil] at hcell
          rw [cells, List.map_singleton, hcell, List.map_singleton]
      | cons f more =>
          rw [cells, List.map_cons, Entry.text, replaceAll_reference he he.label,
            ih fun g hg => h g (List.mem_cons_of_mem e hg)]
          rfl

/-- The names of a list whose first name is not SELECT are those it was written with. -/
theorem names_row {e : Entry} {more : List Entry} (h : ∀ f ∈ e :: more, f.Readable)
    (hgap : e.gap = []) : names (row (e :: more)) =
      if e.name.map foldLetter = "SELECT".toList then [] else (e :: more).map Entry.name := by
  have hname := (h e List.mem_cons_self).name
  have hedge : isWordAt (behindFirst e more).head? = false := by
    have hends := (edge_behindFirst e more endsList_nil).1
    rwa [List.append_nil] at hends
  have hcomma : ∀ cell ∈ cells (e :: more), ',' ∉ cell := by
    intro cell hcell hmem
    obtain hword | hblank := chars_cells h cell hcell ',' hmem
    · exact absurd hword (by decide)
    · exact absurd hblank (by decide)
  have hcells : (row (e :: more)).splitOn ',' = cells (e :: more) :=
    List.splitOn_intercalate ',' hcomma (cells_ne_nil e more)
  have hsubquery : subquery.occursIn (row (e :: more)) =
      (e.name.map foldLetter == "SELECT".toList) := by
    rw [row_cons, hgap, List.nil_append, subquery_front hname hedge]
  rw [names, hsubquery, hcells, names_cells h]
  simp only [beq_iff_eq]

/-- What a list of names comes to: nothing behind SELECT, else the names with a letter. -/
def listed : List Text → List Text
  | [] => []
  | w :: more =>
    if w.map foldLetter = "SELECT".toList then [] else (w :: more).filter Text.hasLetter

/-! ### The search over a list and the label behind it -/

/-- A name that no clause starts with. -/
def NoAnchor (w : Text) : Prop :=
  ∀ k ∈ anchors, w.map foldLetter ≠ k.map foldLetter

/-- No clause starts in an alias that no clause starts with. -/
theorem yields_label {label : Label Text} (hlabel : label.Holds Wordy)
    (hother : label.Holds NoAnchor) (before : Text) {rest : Text}
    (hrest : isWordAt rest.head? = false) : Yields before label.text rest [] := by
  cases label with
  | none => rfl
  | short w => exact .mark rfl (yields_word hlabel.2 hother _ hrest)
  | long w =>
      have has : Yields (' ' :: before) "AS".toList (' ' :: w ++ rest) [] :=
        yields_word (by decide) (by decide) _ rfl
      exact .mark rfl (has.append (.mark rfl (yields_word hlabel.2 hother _ hrest)))

theorem listed_eq_self {ws : List Text} (hletters : ∀ w ∈ ws, w.hasLetter = true)
    (hselect : ∀ w ∈ ws, w.map foldLetter ≠ "SELECT".toList) : listed ws = ws := by
  cases ws with
  | nil => rfl
  | cons w more =>
      rw [listed, if_neg (hselect w List.mem_cons_self)]
      exact List.filter_eq_self.mpr hletters

section

variable {entries : List Entry} (h : ∀ e ∈ entries, e.Readable)
  (hfirst : entries.head?.map Entry.gap = some [])

include h hfirst

theorem tables_row : tables (row entries) = listed (entries.map Entry.name) := by
  obtain ⟨e, hhead, hgap⟩ := Option.map_eq_some_iff.mp hfirst
  obtain ⟨more, rfl⟩ := List.head?_eq_some_iff.mp hhead
  rw [tables, names_row h hgap, List.map_cons, listed]
  split <;> rfl

/-- A clause is found with the names of its list, whatever the last alias. -/
theorem yields_row {label : Label Text} (hlabel : label.Holds Wordy)
    (hother : label.Holds NoAnchor) {before rest : Text} (hbefore : isWordAt before.head? = false)
    (hrest : EndsList rest) :
    Yields before ("FROM ".toList ++ (row entries ++ label.text)) rest [row entries] := by
  obtain ⟨e, hhead, hgap⟩ := Option.map_eq_some_iff.mp hfirst
  obtain ⟨more, rfl⟩ := List.head?_eq_some_iff.mp hhead
  have hclause : Clause "FROM".toList [' '] (row (e :: more)) (label.text ++ rest) :=
    clause_row ⟨"FROM".toList, by decide, rfl⟩
      ⟨[' '], by decide, List.forall_mem_singleton.mpr rfl, Or.inl rfl⟩ h hgap
      (endsList_label hlabel hrest)
  have hrow := hclause.yields hbefore fun hupdate => absurd hupdate (by decide)
  have hall := hrow.append (yields_label hlabel hother _ hrest.edge)
  rw [List.append_nil] at hall
  simpa using hall

end

/-! ### Lists of one name -/

/-- The anchor and the only name of a clause, and what stands between them. -/
structure Single (anchor gap w rest : Text) : Prop where
  anchor : ∃ k ∈ anchors, anchor.map foldLetter = k.map foldLetter
  gap : ∃ blanks, blanks ≠ [] ∧ (∀ c ∈ blanks, isBlank c = true) ∧
    (gap = blanks ∨ gap = blanks ++ ['('])
  nonempty : w ≠ []
  word : ∀ c ∈ w, isWord c = true
  ends : EndsList rest

theorem readable_single {w : Text} (hw : Wordy w) :
    ∀ f ∈ [Entry.mk [] w .none], f.Readable :=
  List.forall_mem_singleton.mpr ⟨List.forall_mem_nil _, hw, trivial⟩

theorem row_single (w : Text) : row [⟨[], w, .none⟩] = w := by
  rw [row_cons]
  exact List.append_nil w

theorem Single.clause {anchor gap w rest : Text} (h : Single anchor gap w rest) :
    Clause anchor gap w rest := by
  have hrow := clause_row h.anchor h.gap (readable_single ⟨h.nonempty, h.word⟩) rfl h.ends
  rwa [row_single] at hrow

/-- A clause with a single name is found whole. -/
theorem yields_clause {before anchor gap w rest : Text} (h : Single anchor gap w rest)
    (hbefore : isWordAt before.head? = false)
    (hcolumns : anchor.map foldLetter ≠ "UPDATE".toList.map foldLetter) :
    Yields before (anchor ++ (gap ++ w)) rest [w] :=
  h.clause.yields hbefore fun hupdate => absurd hupdate hcolumns

/-- A word that does not start a subquery names itself. -/
theorem names_word {w : Text} (hne : w ≠ []) (hword : ∀ c ∈ w, isWord c = true)
    (hselect : w.map foldLetter ≠ "SELECT".toList.map foldLetter) : names w = [w] := by
  have hfirst : w.map foldLetter ≠ "SELECT".toList := hselect
  have hnames := names_row (readable_single ⟨hne, hword⟩) rfl
  rwa [if_neg hfirst, row_single] at hnames

end TableClause
end QueryDigest
