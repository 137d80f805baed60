import QueryDigest.Proofs.Pattern.WordPasses
import QueryDigest.Proofs.Statement.LoadStatements

/-!
The target of a bulk load. The words of a load name the first target of the statement as it stands,
its tables that of the statement without modifiers and literals. They name the same table if the
clause stands outside literals, nothing in front of it reads like one, and its name keeps its end.
-/

namespace QueryDigest

open Pattern
open Nested (modifiers modifier_opens isWord_of_reads_modifiers)
open Text (Blank Words)
open Unicode (foldLetter isBlank isWord)

namespace LoadTarget

def mark : Text :=
  "INTO TABLE".toList

theorem fold_mark : mark.map foldLetter = mark := by
  decide

/-- A text in which the mark of a target can be read, in any case. -/
def Mentions (t : Text) : Prop :=
  mark <:+: t.map foldLetter

instance : DecidablePred Mentions :=
  fun _ => inferInstanceAs (Decidable (_ <:+: _))

/-- The mark, white space and a name with white space or nothing behind it. -/
structure Clause (w bs name rest : Text) : Prop where
  reads : w.map foldLetter = mark
  blank : Blank bs
  name : Words [name]
  ends : ∀ c, rest.head? = some c → isBlank c = true

/-! ### The first target -/

theorem starts_clause {before after : Text} {h : Hit}
    (hmatch : clause.matchAt? ⟨before, after⟩ = some h) :
    ∃ m rest, after = m ++ rest ∧ m.map foldLetter = mark := by
  obtain ⟨a, hrun, _⟩ := matchAt?_eq_some hmatch
  rw [clause, run_append, run_append] at hrun
  obtain ⟨m, rest, hafter, hm, _⟩ := run_keyword_eq_some hrun
  exact ⟨m, rest, hafter, hm.trans fold_mark⟩

theorem mentions_of_split {u m v : Text} (hm : m.map foldLetter = mark) :
    Mentions (u ++ (m ++ v)) := by
  rw [Mentions, List.map_append, List.map_append, hm]
  exact ⟨_, _, List.append_assoc _ _ _⟩

theorem ofStatement?_eq_none {t : Text} (h : ¬ Mentions t) : ofStatement? t = none := by
  refine Option.map_eq_none_iff.mpr (Option.eq_none_iff_forall_ne_some.mpr fun hit hfind => ?_)
  obtain ⟨u, v, rfl, hmatch⟩ := findBetween_some hfind
  obtain ⟨m, rest, rfl, hm⟩ := starts_clause hmatch
  exact h (mentions_of_split hm)

/-- The mark does not overlap with itself, so none starts in front of the first one. -/
theorem matchAt?_in_front {p w v : Text} (hp : ¬ Mentions p) (hw : w.map foldLetter = mark)
    {u s : Text} {c : Char} (hsplit : p = u ++ c :: s) (before : Text) :
    clause.matchAt? ⟨before, c :: (s ++ (w ++ v))⟩ = none := by
  have hmark : ∀ s ∈ mark.tails, s ≠ [] → s ≠ mark → ¬ s <+: mark ∧ ¬ mark <+: s := by decide
  refine Option.eq_none_iff_forall_ne_some.mpr fun hit hmatch => ?_
  obtain ⟨m, rest, hafter, hm⟩ := starts_clause hmatch
  have hafter : (c :: s) ++ (w ++ v) = m ++ rest := hafter
  obtain ⟨x, hx, hbehind⟩ | ⟨y, hy, _⟩ := List.append_eq_append_iff.mp hafter
  · by_cases hnil : x = []
    · subst hnil
      rw [List.append_nil] at hx
      refine hp ?_
      rw [hsplit, ← hx, ← List.append_nil m]
      exact mentions_of_split hm
    · have hfold : mark = (c :: s).map foldLetter ++ x.map foldLetter := by
        rw [← hm, hx, List.map_append]
      have hproper : x.map foldLetter ≠ mark := by
        intro hwhole
        rw [hwhole] at hfold
        exact absurd (List.append_left_eq_self.mp hfold.symm) (by simp)
      obtain ⟨hxm, hmx⟩ := hmark (x.map foldLetter)
        ((List.mem_tails _ _).mpr ⟨_, hfold.symm⟩) (by simpa using hnil) hproper
      have hstart := fold_starts hbehind (rfl : w ++ v = w ++ v)
      rw [hw] at hstart
      exact hstart.elim hxm hmx
  · refine hp ?_
    rw [hsplit, hy]
    exact mentions_of_split hm

/-- Behind a text without a mark the first target is the name. -/
theorem Clause.first {w bs name rest : Text} (h : Clause w bs name rest) {p : Text}
    (hp : ¬ Mentions p) : ofStatement? (p ++ (w ++ (bs ++ (name ++ rest)))) = some name := by
  obtain ⟨hne, hname⟩ := h.name name List.mem_cons_self
  have hedge := Text.head_nonblank hname hne rest
  have hclass : ∀ c, notBlank c = !isBlank c := fun _ => rfl
  have hmatch : clause.matchAt? ⟨p.reverse ++ [], w ++ (bs ++ (name ++ rest))⟩ =
      some ⟨⟨p.reverse ++ [], w ++ (bs ++ (name ++ rest))⟩, w.length + bs.length + name.length,
        [(w.length + bs.length, w.length + bs.length + name.length)]⟩ := by
    have hreads : w.map foldLetter = "INTO TABLE".toList.map foldLetter :=
      h.reads.trans fold_mark.symm
    rw [matchAt?, clause, run_append, run_append, run_keyword hreads rfl,
      run_blanks h.blank hedge rfl, run_group, run_nonblanks hclass h.name h.ends rfl]
    simp [Attempt.close, Nat.add_assoc]
  rw [ofStatement?, find, findFrom]
  change (clause.findBetween [] (p ++ (w ++ (bs ++ (name ++ rest))))).map _ = _
  rw [findBetween_skip [] _ fun u c s hsplit => matchAt?_in_front hp h.reads hsplit _,
    findBetween_hit hmatch, Option.map_some]
  have hgroup := Hit.group_single (p.reverse ++ []) (w ++ bs) name rest
    (w.length + bs.length + name.length) List.length_append.symm rfl
  rw [List.append_assoc] at hgroup
  rw [hgroup]

/-! ### The pass over modifiers -/

theorem matchAt?_modifier_run {m bs rest : Text} (hm : m.map foldLetter ∈ modifiers)
    (hbs : Blank bs) (hrest : ∀ c, rest.head? = some c → isBlank c = false) (before : Text) :
    Extraction.modifier.matchAt? ⟨before, m ++ (bs ++ rest)⟩ =
      some ⟨⟨before, m ++ (bs ++ rest)⟩, m.length + bs.length, []⟩ := by
  have hapart : ∀ m ∈ modifiers, m.map foldLetter = m ∧ ∀ m' ∈ modifiers,
      m'.map foldLetter <+: m.map foldLetter ∨ m.map foldLetter <+: m'.map foldLetter →
        m' = m := by
    decide
  obtain ⟨hfold, hapart⟩ := hapart _ hm
  rw [matchAt?, Nested.modifier_eq, run_append, run_keywords hm hfold.symm hapart rfl,
    run_blanks hbs hrest rfl]
  simp

/-- A modifier in front of the mark has its white space there too. -/
theorem modifier_in_front {s w v m more : Text} {b : Char} (hw : w.map foldLetter = mark)
    (hm : m.map foldLetter ∈ modifiers) (hb : isBlank b = true)
    (h : s ++ (w ++ v) = m ++ b :: more) : ∃ y, s = m ++ b :: y := by
  -- The mark starts with the word INTO, which no modifier ends with.
  obtain ⟨w₁, w₂, rfl, hw₁, hw₂⟩ := List.map_eq_append_iff.mp
    (hw.trans (show mark = "INTO".toList ++ " TABLE".toList from rfl))
  obtain ⟨hne, hword⟩ := Text.word_of_fold (t := "INTO".toList) hw₁ (by decide) (by decide)
  have hsecond : isWordAt (w₂ ++ v).head? = false := by
    cases w₂ with
    | nil => cases hw₂
    | cons d w₂ =>
        have hspace : foldLetter d = ' ' := (List.cons.inj hw₂).1
        change isWord d = false
        rw [← Unicode.isWord_foldLetter, hspace]
        rfl
  obtain ⟨x, hx, hbehind⟩ | ⟨y, hy, hbehind⟩ := List.append_eq_append_iff.mp h
  · have hends : ∀ m ∈ modifiers, ¬ "INTO".toList <:+ m := by decide
    have hxword : ∀ c ∈ x, isWord c = true := fun c hc =>
      (isWord_of_reads_modifiers hm).2 c (hx ▸ List.mem_append_right s hc)
    have hedge : isWordAt (b :: more).head? = false := Unicode.isWord_of_isBlank hb
    rw [List.append_assoc] at hbehind
    obtain rfl : w₁ = x := Text.word_unique hbehind hword hxword hsecond hedge
    refine absurd ?_ (hends _ hm)
    rw [hx, List.map_append, hw₁]
    exact List.suffix_append _ _
  · cases y with
    | cons d y =>
        cases hbehind
        exact ⟨y, hy⟩
    | nil =>
        obtain ⟨c, w₁, rfl⟩ := List.exists_cons_of_ne_nil hne
        cases hbehind
        rw [Unicode.isBlank_of_isWord (hword b List.mem_cons_self)] at hb
        cases hb

theorem cut_modifier {w : Text} (hw : w.map foldLetter = mark) (u v : Text) :
    Cut Extraction.modifier u (w ++ v) := by
  intro s _ _ before
  have hhead : ∀ c, (w ++ v).head? = some c → isBlank c = false :=
    BulkLoad.head_of_fold hw rfl v
  by_cases hfront : ∃ m b y, s = m ++ b :: y ∧ m.map foldLetter ∈ modifiers ∧ isBlank b = true
  · obtain ⟨m, b, y, rfl, hm, hb⟩ := hfront
    obtain ⟨bs, t, hy, hbs, ht⟩ := Text.split_blank hb y
    refine Or.inr ⟨m ++ bs, t, by rw [hy, List.append_assoc], ?_, fun tail htail => ?_⟩
    · exact List.append_ne_nil_of_left_ne_nil (isWord_of_reads_modifiers hm).1 _
    · have hedge : ∀ c, (t ++ tail).head? = some c → isBlank c = false := by
        cases t with
        | cons d t => exact ht
        | nil =>
            obtain rfl | rfl : tail = w ++ v ∨ tail = [] := by simpa using htail
            · exact hhead
            · simp
      have hmatch := matchAt?_modifier_run hm hbs hedge before
      rw [← List.append_assoc bs, ← hy, ← List.append_assoc] at hmatch
      exact ⟨_, hmatch, List.length_append.symm⟩
  · refine Or.inl fun tail htail => Option.eq_none_iff_forall_ne_some.mpr fun hit hmatch => ?_
    obtain ⟨m, b, more, hafter, hm, hb⟩ := modifier_opens hmatch
    obtain rfl | rfl : tail = w ++ v ∨ tail = [] := by simpa using htail
    · obtain ⟨y, hy⟩ := modifier_in_front hw hm hb hafter
      exact hfront ⟨m, b, y, hy, hm, hb⟩
    · rw [List.append_nil] at hafter
      exact hfront ⟨m, b, more, hafter, hm, hb⟩

/-- Whether a name in front of white space or the end of the text ends with a modifier there. -/
def KeepsEnd (name rest : Text) : Prop :=
  rest = [] ∨ ∀ m ∈ modifiers, ¬ m <:+ name.map foldLetter

theorem turns_name {name rest : Text} (hname : ∀ c ∈ name, isBlank c = false)
    (hends : ∀ c, rest.head? = some c → isBlank c = true) (hkeeps : KeepsEnd name rest)
    (before : Text) : Turns Extraction.modifier [' '] before name rest name := by
  refine turns_of_no_match fun u c v hsplit => ?_
  refine Option.eq_none_iff_forall_ne_some.mpr fun hit hmatch => ?_
  obtain ⟨m, b, more, hafter, hm, hb⟩ := modifier_opens hmatch
  have hafter : (c :: v) ++ rest = m ++ b :: more := hafter
  have hmodifier : ∀ d ∈ m, isBlank d = false := fun d hd =>
    Unicode.isBlank_of_isWord ((isWord_of_reads_modifiers hm).2 d hd)
  have hrest : ∀ d ∈ c :: v, isBlank d = false := fun d hd =>
    hname d (hsplit ▸ List.mem_append_right u hd)
  have hstop : ∀ d, (b :: more).head? = some d → isBlank d = true := by
    rintro _ ⟨⟩
    exact hb
  obtain ⟨htake, hdrop⟩ := Text.span_nonblank hrest hends
  obtain ⟨htake', hdrop'⟩ := Text.span_nonblank hmodifier hstop
  rw [hafter] at htake hdrop
  obtain hnil | hnone := hkeeps
  · rw [hnil, hdrop'] at hdrop
    cases hdrop
  · refine hnone _ hm ?_
    rw [← htake', htake, hsplit, List.map_append]
    exact List.suffix_append _ _

theorem Clause.turns_modifier {w bs name rest : Text} (h : Clause w bs name rest)
    (hkeeps : KeepsEnd name rest) (before : Text) :
    Turns Extraction.modifier [' '] before (w ++ (bs ++ name)) rest (w ++ (bs ++ name)) := by
  have hmark : ∀ before rest, Turns Extraction.modifier [' '] before w rest w :=
    turns_of_keyword BulkLoad.starts_modifier h.reads (by decide) [' ']
  have hblank : ∀ before rest, Turns Extraction.modifier [' '] before bs rest bs :=
    fun _ _ => turns_of_chars (P := fun c => isBlank c = true) BulkLoad.matchAt?_modifier_blank
      h.blank.blank
  exact (hmark _ _).append ((hblank _ _).append
    (turns_name (h.name name List.mem_cons_self).2 h.ends hkeeps _))

/-! ### The target of the statement as it is searched -/

/-- The clause that names the target stands outside literals and behind nothing that reads like one,
before and after modifiers and literals are gone, and its name is not cut; or there is no clause. -/
inductive Undisturbed : Text → Prop where
  | absent {t : Text} (h : ¬ Mentions t) (hscanned : ¬ Mentions (Extraction.scanned t)) :
      Undisturbed t
  | present {p w bs name rest : Text} (hclause : Clause w bs name rest)
      (hname : ∀ c ∈ name, Extraction.Harmless c) (hkeeps : KeepsEnd name rest)
      (hfront : ¬ Mentions p)
      (hclosed : Extraction.Closed (Extraction.modifier.replaceAll (fun _ => [' ']) p))
      (hscanned : ¬ Mentions
        (Extraction.blankLiterals (Extraction.modifier.replaceAll (fun _ => [' ']) p))) :
      Undisturbed (p ++ (w ++ (bs ++ (name ++ rest))))

/-- The clause is kept as it is behind what is left of the text in front of it. -/
theorem Clause.scanned {p w bs name rest : Text} (h : Clause w bs name rest)
    (hname : ∀ c ∈ name, Extraction.Harmless c) (hkeeps : KeepsEnd name rest)
    (hclosed : Extraction.Closed (Extraction.modifier.replaceAll (fun _ => [' ']) p))
    (hload : OpensWith BulkLoad.opening (p ++ (w ++ (bs ++ (name ++ rest))))) :
    ∃ rest', Clause w bs name rest' ∧
      Extraction.scanned (p ++ (w ++ (bs ++ (name ++ rest)))) =
        Extraction.blankLiterals (Extraction.modifier.replaceAll (fun _ => [' ']) p) ++
          (w ++ (bs ++ (name ++ rest'))) := by
  have hshape : ∀ rest : Text, w ++ (bs ++ (name ++ rest)) = w ++ (bs ++ name) ++ rest := by simp
  have hfront : Turns Extraction.modifier [' '] [] p (w ++ (bs ++ name) ++ rest)
      (Extraction.modifier.replaceAll (fun _ => [' ']) p) := by
    rw [List.append_assoc]
    exact (cut_modifier h.reads p _).turns_replaceAll [' ']
  obtain ⟨rest₁, hunmodified, hrest₁⟩ := replaceAll_around hfront (h.turns_modifier hkeeps)
    BulkLoad.matchAt?_modifier_blank h.ends
  have hharmless : ∀ c ∈ w ++ (bs ++ name), Extraction.Harmless c := by
    simp only [List.forall_mem_append]
    exact ⟨Extraction.harmless_of_fold (h.reads.trans fold_mark.symm) (by decide),
      fun c hc => Extraction.harmless_of_isBlank (h.blank.blank c hc), hname⟩
  have hne : w ++ (bs ++ name) ≠ [] := by
    simp [h.blank.nonempty]
  obtain ⟨rest₂, hblanked, hrest₂⟩ :=
    Extraction.blankLiterals_closed hclosed hne hharmless hrest₁
  refine ⟨rest₂, ⟨h.reads, h.blank, h.name, hrest₂⟩, ?_⟩
  rw [BulkLoad.scanned_load hload, hshape, hshape, hunmodified, hblanked]

theorem ofStatement?_scanned {t : Text} (h : Undisturbed t)
    (hload : OpensWith BulkLoad.opening t) :
    ofStatement? (Extraction.scanned t) = ofStatement? t := by
  cases h with
  | absent h hscanned => rw [ofStatement?_eq_none h, ofStatement?_eq_none hscanned]
  | present hclause hname hkeeps hfront hclosed hscanned =>
      obtain ⟨rest', hclause', hsplit⟩ := hclause.scanned hname hkeeps hclosed hload
      rw [hsplit, hclause'.first hscanned, hclause.first hfront]

end LoadTarget

/-- The fingerprint of a bulk load names the target of the statement as it stands and its tables are
the target of the statement as it is searched; an undisturbed clause makes them one table. -/
theorem fingerprint_load_eq_tables (t : Text) (hload : OpensWith "LOAD DATA".toList t) :
    fingerprint t =
        "LOAD DATA ".toList ++ Identifier.unquoted ((LoadTarget.ofStatement? t).getD []) ∧
      tablesOf t = (LoadTarget.ofStatement? (Extraction.scanned t)).toList ∧
        (LoadTarget.Undisturbed t →
          fingerprint t = "LOAD DATA ".toList ++ (tablesOf t).flatMap Identifier.unquoted) := by
  have hwords := BulkLoad.fingerprint_load hload
  have htables := BulkLoad.tablesOf_load hload
  refine ⟨hwords, htables, fun hundisturbed => ?_⟩
  rw [hwords, htables, LoadTarget.ofStatement?_scanned hundisturbed hload]
  cases LoadTarget.ofStatement? t with
  | none => rfl
  | some target => simp

/-- A file name with quotes and the word INTO in it, and a modifier in front of the clause. -/
theorem fingerprint_load_eq_tables_quoted :
    let t := "load data infile 'a \"b\" into.csv' ignore into table \x60db\x60.t fields".toList
    fingerprint t = "LOAD DATA ".toList ++ (tablesOf t).flatMap Identifier.unquoted ∧
      tablesOf t = ["\x60db\x60.t".toList] := by
  intro t
  have hload : OpensWith "LOAD DATA".toList t :=
    ⟨"load data".toList, t.drop 9, by decide, by decide⟩
  have hclause : LoadTarget.Clause "into table".toList [' '] "\x60db\x60.t".toList
      " fields".toList :=
    ⟨by decide, Text.blank_space, List.forall_mem_singleton.mpr ⟨by decide, by decide⟩,
      by rintro _ ⟨⟩; rfl⟩
  have hundisturbed : LoadTarget.Undisturbed t :=
    .present (p := "load data infile 'a \"b\" into.csv' ignore ".toList) hclause (by decide)
      (Or.inr (by decide)) (by decide +kernel) ⟨by decide +kernel, by decide +kernel⟩
      (by decide +kernel)
  obtain ⟨_, htables, hsame⟩ := fingerprint_load_eq_tables t hload
  exact ⟨hsame hundisturbed, htables.trans (by decide +kernel)⟩

/-- A file name that reads like the clause is taken for it by the fingerprint alone. -/
theorem fingerprint_load_ne_tables :
    ¬ ∀ t : Text, OpensWith "LOAD DATA".toList t →
      fingerprint t = "LOAD DATA ".toList ++ (tablesOf t).flatMap Identifier.unquoted := by
  intro h
  have hsame := h "LOAD DATA INFILE 'into table x' INTO TABLE t".toList
    ⟨"LOAD DATA".toList, " INFILE 'into table x' INTO TABLE t".toList, by decide, rfl⟩
  revert hsame
  decide +kernel

end QueryDigest
