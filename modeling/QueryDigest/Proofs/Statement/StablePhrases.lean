import QueryDigest.Proofs.Statement.Subqueries
import QueryDigest.Proofs.Statement.VerbPhrases
import QueryDigest.Proofs.Text.Repeats

/-!
Fingerprints without tables, read again as statements. A phrase of verbs is described by the same
verbs, but behind SHOW no more than two of them are kept, and behind UPDATE, or behind the INTO that
is spelled out for a first INSERT or REPLACE, the next verb is taken for a table unless it is
SELECT. So a fingerprint without tables is its own fingerprint just where nothing of this happens.
-/

namespace QueryDigest

open Extraction (insertVerbs)
open Pattern
open TableClause (Unkeyed Wordy anchors namesBehind)
open Unicode (foldLetter isBlank isWord)

theorem Nested.Tame.spaced {ws : List Text} (h : ∀ w ∈ ws, Nested.Tame w) :
    Nested.Tame (Text.spaced ws) := by
  induction ws with
  | nil => exact .nil
  | cons w ws ih =>
      obtain ⟨hw, hws⟩ := List.forall_mem_cons.mp h
      cases ws with
      | nil => rwa [Text.spaced_singleton]
      | cons v ws =>
          rw [Text.spaced_cons_cons]
          exact hw.space (ih hws)

namespace Classification

/-! ### Phrases that do not start with SHOW -/

/-- The words of a phrase with INTO spelled out behind a first INSERT or REPLACE. -/
def intoSpelled : List Text → List Text
  | x :: w :: ws =>
      if insertVerbs.contains x then x :: "INTO".toList :: w :: ws else x :: w :: ws
  | vs => vs

/-- The verbs of a phrase that are taken for names of tables. -/
def misread (vs : List Text) : List Text :=
  ((namesBehind (intoSpelled vs)).filter (· ≠ "SELECT".toList)).eraseDups

/-- The phrase that a phrase is described by in turn: two verbs are kept behind SHOW, and any other
phrase has the verbs taken for tables behind it. -/
def reread : List Text → List Text
  | x :: ws => if x = "SHOW".toList then x :: ws.take 2 else x :: ws ++ misread (x :: ws)
  | [] => []

theorem intoSpelled_cons (x : Text) (ws : List Text) :
    ∃ rest, intoSpelled (x :: ws) = x :: rest ∧ ∀ w ∈ rest, w ∈ "INTO".toList :: ws := by
  cases ws with
  | nil => exact ⟨[], rfl, List.forall_mem_nil _⟩
  | cons y ws =>
      rw [intoSpelled]
      split
      · exact ⟨_, rfl, fun w hw => hw⟩
      · exact ⟨_, rfl, fun w hw => List.mem_cons_of_mem _ hw⟩

theorem VerbPhrase.fold_ne {x : Text} {ws : List Text} (h : VerbPhrase (x :: ws)) {k : Text}
    (hne : x ≠ k) (hupper : k.all Char.isUpper = true) (hk : 'K' ∉ k) : x.map foldLetter ≠ k :=
  fun hfold => hne (eq_of_upper (h.upper x List.mem_cons_self) hfold hupper hk)

section

variable {x : Text} {ws : List Text} (h : VerbPhrase (x :: ws))

include h

theorem VerbPhrase.mem_fold : x.map foldLetter ∈ innerVerbs ++ leadingVerbs :=
  (h.verbal x List.mem_cons_self).mem

theorem VerbPhrase.wordy : ∀ w ∈ x :: ws, Wordy w :=
  fun w hw => (h.verbal w hw).unkeyed.wordy

theorem VerbPhrase.opensWith : OpensWith x (Text.spaced (x :: ws)) := by
  have hopens := opensWith_front (h.wordy x List.mem_cons_self) [] (ws.flatMap (' ' :: ·))
  rwa [List.append_nil, ← Text.spaced_cons] at hopens

theorem VerbPhrase.ofRaw?_eq_none : ofRaw? (Text.spaced (x :: ws)) = none := by
  have hapart : ∀ k ∈ innerVerbs ++ leadingVerbs, ∀ k' ∈ rawKeywords,
      ¬ k <+: k'.map foldLetter ∧ ¬ k'.map foldLetter <+: k := by
    decide
  exact Classification.ofRaw?_eq_none h.opensWith (hapart _ h.mem_fold)

theorem VerbPhrase.not_definition :
    DefinitionVerb.ofStatement? (Text.spaced (x :: ws)) = none := by
  have hother : ∀ k ∈ innerVerbs ++ leadingVerbs, ∀ verb : DefinitionVerb,
      k ≠ verb.keyword.map foldLetter := by
    intro k hk verb
    revert k
    cases verb <;> decide
  obtain ⟨hne, hword⟩ := h.wordy x List.mem_cons_self
  rw [Text.spaced_cons]
  exact DefinitionVerb.ofStatement?_of_word hne hword (Text.edge_behind ws) (hother _ h.mem_fold)

theorem VerbPhrase.ofBare?_eq_none (hshow : x ≠ "SHOW".toList) :
    ofBare? (Text.spaced (x :: ws)) = none := by
  have hapart : ∀ k ∈ innerVerbs ++ leadingVerbs, k <+: "SHOW".toList.map foldLetter ∨
      "SHOW".toList.map foldLetter <+: k → k = "SHOW".toList := by
    decide
  have hnone : showing? (Text.spaced (x :: ws)) = none := by
    refine if_neg fun hoccurs => ?_
    have hstart := h.opensWith.apart (opening_showOpening.opensWith_of_occursIn hoccurs)
    exact h.fold_ne hshow (by decide) (by decide) (hapart _ h.mem_fold hstart)
  have hdefinition : definition? (Text.spaced (x :: ws)) = none := by
    simp only [definition?, h.not_definition]
  simp only [ofBare?, List.findSome?_cons, hnone, hdefinition, List.findSome?_nil]

/-- The words of a phrase all count as verbs. -/
theorem VerbPhrase.verbTokens_eq : verbTokens (Text.spaced (x :: ws)) = x :: ws := by
  obtain ⟨hx, hws⟩ := List.forall_mem_cons.mp h.wordy
  obtain ⟨runs, hruns, hbehind⟩ := Text.wordRuns_spaced hx hws
  have hcounts : ∀ run ∈ (0, x) :: runs, CountsAsVerb run := by
    refine List.forall_mem_cons.mpr
      ⟨(h.verbal x List.mem_cons_self).imp id fun hleading => ⟨rfl, hleading⟩, fun run hrun => ?_⟩
    have hmem := h.tail run.2 (hbehind ▸ List.mem_map_of_mem hrun)
    refine Or.inl ?_
    rwa [Reads, fold_innerVerbs _ hmem]
  rw [verbTokens, hruns, List.filter_eq_self.mpr fun run hrun => decide_eq_true (hcounts run hrun)]
  calc ((0, x) :: runs).map (fun run => Unicode.upper run.2)
    _ = (((0, x) :: runs).map Prod.snd).map Unicode.upper := List.map_map.symm
    _ = (x :: ws).map id := by
      rw [List.map_cons, hbehind]
      exact List.map_congr_left h.upper
    _ = x :: ws := List.map_id _

/-! ### Tables read in a phrase -/

theorem VerbPhrase.tame : Nested.Tame (Text.spaced (x :: ws)) := by
  have hends : ∀ k ∈ innerVerbs ++ leadingVerbs, ∀ m ∈ Nested.modifiers, ¬ m <:+ k := by decide
  refine Nested.Tame.spaced fun w hw => .word (h.wordy w hw).2 ?_
  exact hends _ (h.verbal w hw).mem

theorem VerbPhrase.locked?_eq_none : Extraction.locked? (Text.spaced (x :: ws)) = none := by
  cases ws with
  | nil =>
      have hlength : ∀ k ∈ innerVerbs ++ leadingVerbs, k.length < "LOCK TABLES".toList.length := by
        decide
      refine Option.map_eq_none_iff.mpr (Option.eq_none_iff_forall_ne_some.mpr fun hit hfind => ?_)
      obtain ⟨w, rest, hsplit, hw⟩ :=
        ((opening_keyword "LOCK TABLES".toList).append blanks).opensWith hfind
      have hshort := hlength _ h.mem_fold
      have hfold := congrArg List.length hw
      have hfits := (List.dropWhile_suffix isBlank (l := Text.spaced [x])).length_le
      rw [List.length_map] at hshort
      rw [List.length_map, List.length_map] at hfold
      rw [hsplit, Text.spaced_singleton, List.length_append] at hfits
      omega
  | cons y ws =>
      have hapart : ∀ k ∈ innerVerbs ++ leadingVerbs, ∀ k' ∈ innerVerbs,
          ¬ (k ++ ' ' :: k' <+: "LOCK TABLES".toList.map foldLetter ∨
            "LOCK TABLES".toList.map foldLetter <+: k ++ ' ' :: k') := by
        decide
      have hy : y ∈ innerVerbs := h.tail y List.mem_cons_self
      have hopens := opensWith_front (h.wordy x List.mem_cons_self) (' ' :: y)
        (ws.flatMap (' ' :: ·))
      rw [List.append_assoc, List.cons_append, ← Text.spaced_cons, ← Text.spaced_cons_cons]
        at hopens
      refine Extraction.locked?_eq_none hopens ?_
      rw [List.map_append, List.map_cons, fold_innerVerbs y hy]
      exact hapart _ h.mem_fold y hy

theorem VerbPhrase.spellInto_eq :
    Extraction.spellInto (Text.spaced (x :: ws)) = Text.spaced (intoSpelled (x :: ws)) := by
  by_cases hx : x ∈ insertVerbs
  · cases ws with
    | nil =>
        have halone : ∀ k ∈ insertVerbs,
            Extraction.spellInto (Text.spaced [k]) = Text.spaced [k] := by
          decide +kernel
        exact halone x hx
    | cons y ws =>
        have hfold : ∀ k ∈ insertVerbs, k.map foldLetter ∈ insertVerbs := by decide
        have hapart : ∀ k ∈ innerVerbs, ¬ (k.map foldLetter <+: "INTO".toList.map foldLetter ∨
            "INTO".toList.map foldLetter <+: k.map foldLetter) := by
          decide
        have hy := h.wordy y (List.mem_cons_of_mem x List.mem_cons_self)
        have hhead := TableClause.head?_wordy hy (ws.flatMap (' ' :: ·))
        have hopens : OpensWith y ([' '] ++ (y ++ ws.flatMap (' ' :: ·))) :=
          opensWith_of_lead (List.forall_mem_singleton.mpr rfl) rfl hhead
        rw [← Text.spaced_cons] at hhead hopens
        have hinto : ¬ OpensWith "INTO".toList (' ' :: Text.spaced (y :: ws)) := fun hinto =>
          hapart y (h.tail y List.mem_cons_self) (hopens.apart hinto)
        rw [intoSpelled, if_pos (List.contains_iff_mem.mpr hx), Text.spaced_cons_cons,
          Extraction.spellInto_insert (hfold x hx) hhead hinto, Text.spaced_cons_cons,
          Text.spaced_cons_cons]
        rfl
  · have hapart : ∀ k ∈ innerVerbs ++ leadingVerbs, ∀ k' ∈ insertVerbs,
        k <+: k'.map foldLetter ∨ k'.map foldLetter <+: k → k = k' := by
      decide
    have hsame : Text.spaced (intoSpelled (x :: ws)) = Text.spaced (x :: ws) := by
      cases ws with
      | nil => rfl
      | cons y ws => rw [intoSpelled, if_neg (mt List.contains_iff_mem.mp hx)]
    rw [hsame]
    refine Extraction.spellInto_eq_self h.opensWith fun k hk hstart => ?_
    have hplain : ∀ k ∈ insertVerbs, k.all Char.isUpper = true ∧ 'K' ∉ k := by decide
    have hne : x ≠ k := fun heq => hx (heq ▸ hk)
    exact h.fold_ne hne (hplain k hk).1 (hplain k hk).2 (hapart _ h.mem_fold k hk hstart)

theorem VerbPhrase.scanned_eq :
    Extraction.scanned (Text.spaced (x :: ws)) = Text.spaced (intoSpelled (x :: ws)) := by
  have hmodifier := h.tame.unmodified.replaceAll_modifier
  simp only [Extraction.scanned, Extraction.unlocked, hmodifier, h.locked?_eq_none,
    Extraction.withLocks, h.tame.blankLiterals, h.spellInto_eq]

theorem VerbPhrase.mem_names : ∀ w ∈ namesBehind (intoSpelled (x :: ws)),
    w ∈ "INTO".toList :: innerVerbs := by
  obtain ⟨rest, hrest, hsub⟩ := intoSpelled_cons x ws
  rw [hrest]
  intro w hw
  have hmem := hsub w (TableClause.mem_tail_of_mem_namesBehind w hw)
  exact (List.mem_cons.mp hmem).elim (fun heq => heq ▸ List.mem_cons_self) fun hws =>
    List.mem_cons_of_mem _ (h.tail w hws)

theorem VerbPhrase.lists_eq :
    TableClause.lists (Text.spaced (intoSpelled (x :: ws))) =
      namesBehind (intoSpelled (x :: ws)) := by
  obtain ⟨rest, hrest, hsub⟩ := intoSpelled_cons x ws
  have hinto : Unkeyed "INTO".toList := ⟨⟨by decide, by decide⟩, by decide⟩
  refine TableClause.lists_spaced fun w hw => ?_
  rw [hrest] at hw
  obtain rfl | hw := List.mem_cons.mp hw
  · exact (h.verbal w List.mem_cons_self).unkeyed
  · obtain rfl | hw := List.mem_cons.mp (hsub w hw)
    · exact hinto
    · exact (h.verbal w (List.mem_cons_of_mem x hw)).unkeyed

theorem VerbPhrase.not_load :
    Extraction.loadOpening.occursIn (Text.spaced (intoSpelled (x :: ws))) = false := by
  have hapart : ∀ k ∈ innerVerbs ++ leadingVerbs, ¬ (k <+: "LOAD DATA".toList.map foldLetter ∨
      "LOAD DATA".toList.map foldLetter <+: k) := by
    decide
  obtain ⟨rest, hrest, _⟩ := intoSpelled_cons x ws
  have hopens := opensWith_front (h.wordy x List.mem_cons_self) [] (rest.flatMap (' ' :: ·))
  rw [List.append_nil, ← Text.spaced_cons, ← hrest] at hopens
  refine Bool.eq_false_iff.mpr fun hoccurs => hapart _ h.mem_fold ?_
  exact hopens.apart ((opening_keyword "LOAD DATA".toList).opensWith_of_occursIn hoccurs)

end

theorem flatMap_tables {names : List Text} (h : ∀ w ∈ names, w ∈ "INTO".toList :: innerVerbs) :
    names.flatMap TableClause.tables = names.filter (· ≠ "SELECT".toList) := by
  have htables : ∀ k ∈ "INTO".toList :: innerVerbs, TableClause.tables k =
      if k ≠ "SELECT".toList then [k] else [] := by
    decide +kernel
  induction names with
  | nil => rfl
  | cons w names ih =>
      obtain ⟨hw, hnames⟩ := List.forall_mem_cons.mp h
      rw [List.flatMap_cons, htables w hw, ih hnames, List.filter_cons]
      by_cases hselect : w = "SELECT".toList
      · rw [if_neg (not_not_intro hselect),
          if_neg fun hkept => absurd hselect (of_decide_eq_true hkept)]
        rfl
      · rw [if_pos hselect, if_pos (decide_eq_true hselect)]
        rfl

section

variable {x : Text} {ws : List Text} (h : VerbPhrase (x :: ws))

include h

theorem VerbPhrase.tablesOf_eq : tablesOf (Text.spaced (x :: ws)) = misread (x :: ws) := by
  rw [tablesOf, Extraction.ofStatement, h.not_definition, Extraction.tables_ofClauses_eq,
    h.scanned_eq, h.not_load, if_neg Bool.false_ne_true, h.lists_eq, flatMap_tables h.mem_names]
  rfl

theorem VerbPhrase.tables_misread :
    Fingerprint.tables (misread (x :: ws)) [] = misread (x :: ws) := by
  have hmasked : ∀ k ∈ "INTO".toList :: innerVerbs, Fingerprint.maskedName k = k := by
    decide +kernel
  have hsame : ((namesBehind (intoSpelled (x :: ws))).filter (· ≠ "SELECT".toList)).map
      Fingerprint.maskedName =
        (namesBehind (intoSpelled (x :: ws))).filter (· ≠ "SELECT".toList) := by
    refine (List.map_congr_left fun w hw => ?_).trans (List.map_id _)
    exact hmasked w (h.mem_names w (List.mem_of_mem_filter hw))
  have htables : ∀ found, Fingerprint.tables found [] =
      (found.map Fingerprint.maskedName).eraseDups := by
    intro found
    rw [Fingerprint.tables]
    simp
  rw [htables, misread, List.eraseDups_map_eraseDups, hsame]

theorem VerbPhrase.fingerprint_eq (hshow : x ≠ "SHOW".toList) :
    fingerprint (Text.spaced (x :: ws)) = Text.spaced ((x :: ws) ++ misread (x :: ws)) := by
  have herase := Comment.erase_spaced h.wordy
  have hbare : ofBare? (Comment.erase (Text.spaced (x :: ws))) = none := by
    rw [herase, h.ofBare?_eq_none hshow]
  have hstarts : (x :: ws).head?.any "SHOW".toList.isPrefixOf = false := by
    refine Bool.eq_false_iff.mpr fun hstarts => ?_
    have hprefix : "SHOW".toList <+: x ++ [] := by
      rw [List.append_nil]
      exact List.isPrefixOf_iff_prefix.mp hstarts
    exact h.fold_ne hshow (by decide) (by decide)
      ((h.verbal x List.mem_cons_self).starts_show hprefix).2
  rw [fingerprint_of_unclaimed h.ofRaw?_eq_none hbare, herase, h.verbTokens_eq, h.settled,
    h.tablesOf_eq, tablesBehind, hstarts, h.tables_misread,
    Text.spaced_append (List.cons_ne_nil x ws)]
  rfl

end

/-- A phrase of verbs is described by the verbs that are read back from it. -/
theorem VerbPhrase.fingerprint_spaced {vs : List Text} (h : VerbPhrase vs) :
    fingerprint (Text.spaced vs) = Text.spaced (reread vs) := by
  cases vs with
  | nil => decide +kernel
  | cons x ws =>
      by_cases hshow : x = "SHOW".toList
      · rw [reread, if_pos hshow, hshow]
        exact fingerprint_show h.tail
      · rw [reread, if_neg hshow]
        exact h.fingerprint_eq hshow

/-! ### Phrases that are read back as they are -/

/-- A phrase that is read back as it is: at most two verbs stand behind SHOW, and in any other
phrase only SELECT stands behind UPDATE and behind a first INSERT or REPLACE. -/
def Stable : List Text → Prop
  | x :: ws =>
    if x = "SHOW".toList then ws.length ≤ 2
    else (x ∈ insertVerbs → ∀ w ∈ ws.head?, w = "SELECT".toList) ∧
      (x :: ws).IsChain fun v w => v = "UPDATE".toList → w = "SELECT".toList
  | [] => True

instance : DecidablePred Stable := fun vs =>
  match vs with
  | [] => inferInstanceAs (Decidable True)
  | x :: ws => inferInstanceAs (Decidable (if x = "SHOW".toList then ws.length ≤ 2
      else (x ∈ insertVerbs → ∀ w ∈ ws.head?, w = "SELECT".toList) ∧
        (x :: ws).IsChain fun v w => v = "UPDATE".toList → w = "SELECT".toList))

/-- No table is read behind a word: it opens no clause, or SELECT is the next word. -/
def NoTable (v w : Text) : Prop :=
  v.map foldLetter ∈ anchors → w = "SELECT".toList

theorem noTable_select (w : Text) : NoTable "SELECT".toList w :=
  fun hmem => absurd hmem (by decide)

/-- A word behind an anchor is taken for a name, so that it opens no clause by itself; SELECT would
open none anyway. -/
theorem forall_names_iff {ws : List Text} :
    (∀ w ∈ namesBehind ws, w = "SELECT".toList) ↔ ws.IsChain NoTable := by
  fun_induction namesBehind ws with
  | case1 v w ws hanchor ih =>
      have hv : NoTable v w ↔ w = "SELECT".toList :=
        forall_prop_of_true (List.contains_iff_mem.mp hanchor)
      rw [List.forall_mem_cons, ih, List.isChain_cons_cons, hv, List.isChain_cons]
      refine and_congr_right fun hw => ?_
      rw [hw]
      exact (and_iff_right fun y _ => noTable_select y).symm
  | case2 v w ws hother ih =>
      have hv : NoTable v w := fun hmem => absurd (List.contains_iff_mem.mpr hmem) hother
      rw [ih, List.isChain_cons_cons, and_iff_right hv]
  | case3 ws hshort =>
      obtain _ | ⟨v, _ | ⟨w, ws⟩⟩ := ws
      · simp
      · simp
      · exact absurd rfl (hshort v w ws)

/-- In front of a first INSERT or REPLACE and of the INTO behind it no name is found. -/
theorem isChain_intoSpelled_iff (x : Text) (ws : List Text) :
    (intoSpelled (x :: ws)).IsChain NoTable ↔
      (x ∈ insertVerbs → ∀ w ∈ ws.head?, w = "SELECT".toList) ∧ (x :: ws).IsChain NoTable := by
  cases ws with
  | nil => exact iff_of_true (List.isChain_singleton x) ⟨by simp, List.isChain_singleton x⟩
  | cons y ws =>
      rw [intoSpelled]
      by_cases hx : x ∈ insertVerbs
      · rw [if_pos (List.contains_iff_mem.mpr hx)]
        have hanchors : ∀ k ∈ insertVerbs, k.map foldLetter ∉ anchors := by decide
        have hfree : ∀ w, NoTable x w := fun w hmem => absurd hmem (hanchors x hx)
        have hinto : NoTable "INTO".toList y ↔ y = "SELECT".toList :=
          forall_prop_of_true (by decide)
        have hhead : (x ∈ insertVerbs → ∀ w ∈ (y :: ws).head?, w = "SELECT".toList) ↔
            y = "SELECT".toList := by
          simp [hx]
        rw [hhead, List.isChain_cons_cons, and_iff_right (hfree _), List.isChain_cons_cons, hinto,
          List.isChain_cons_cons, and_iff_right (hfree _)]
      · rw [if_neg (mt List.contains_iff_mem.mp hx)]
        exact (and_iff_right fun hmem => absurd hmem hx).symm

theorem misread_eq_nil_iff (vs : List Text) :
    misread vs = [] ↔ (intoSpelled vs).IsChain NoTable := by
  rw [← forall_names_iff, misread, List.eq_nil_iff_forall_not_mem]
  simp only [List.mem_eraseDups, List.mem_filter, decide_eq_true_eq, not_and, not_not]

section

variable {x : Text} {ws : List Text} (h : VerbPhrase (x :: ws))

include h

/-- Of the verbs only UPDATE opens a clause. -/
theorem VerbPhrase.mem_anchors_iff :
    ∀ w ∈ x :: ws, w.map foldLetter ∈ anchors ↔ w = "UPDATE".toList := by
  have hupdate : ∀ k ∈ innerVerbs ++ leadingVerbs, k ∈ anchors → k = "UPDATE".toList := by decide
  intro w hw
  constructor
  · intro hmem
    exact eq_of_upper (h.upper w hw) (hupdate _ (h.verbal w hw).mem hmem)
      (by decide) (by decide)
  · rintro rfl
    decide

theorem VerbPhrase.isChain_noTable_iff : (x :: ws).IsChain NoTable ↔
    (x :: ws).IsChain fun v w => v = "UPDATE".toList → w = "SELECT".toList :=
  List.IsChain.iff_of_mem_imp fun v _ hv _ => imp_congr (h.mem_anchors_iff v hv) Iff.rfl

end

/-- A phrase is read back as it is just where it is stable. -/
theorem VerbPhrase.reread_eq_self_iff {vs : List Text} (h : VerbPhrase vs) :
    reread vs = vs ↔ Stable vs := by
  cases vs with
  | nil => exact iff_of_true rfl trivial
  | cons x ws =>
      rw [reread, Stable]
      split
      · rw [List.cons_inj_right, List.take_eq_self_iff]
      · rw [List.append_right_eq_self, misread_eq_nil_iff, isChain_intoSpelled_iff,
          h.isChain_noTable_iff]

theorem VerbPhrase.wordy_reread {x : Text} {ws : List Text} (h : VerbPhrase (x :: ws)) :
    reread (x :: ws) ≠ [] ∧ ∀ w ∈ reread (x :: ws), Wordy w := by
  have hmisread : ∀ w ∈ misread (x :: ws), Wordy w := by
    have hnames : ∀ k ∈ "INTO".toList :: innerVerbs, k ≠ [] ∧ ∀ c ∈ k, isWord c = true := by decide
    intro w hw
    rw [misread, List.mem_eraseDups] at hw
    exact hnames w (h.mem_names w (List.mem_of_mem_filter hw))
  rw [reread]
  split
  · exact ⟨List.cons_ne_nil _ _, fun w hw =>
      h.wordy w (List.cons_subset_cons x (List.take_subset 2 ws) hw)⟩
  · exact ⟨List.cons_ne_nil _ _, List.forall_mem_append.mpr ⟨h.wordy, hmisread⟩⟩

theorem VerbPhrase.spaced_reread_iff {vs : List Text} (h : VerbPhrase vs) :
    Text.spaced (reread vs) = Text.spaced vs ↔ Stable vs := by
  rw [← h.reread_eq_self_iff]
  cases vs with
  | nil => exact iff_of_true rfl rfl
  | cons x ws =>
      obtain ⟨hne, hwordy⟩ := h.wordy_reread
      exact Text.spaced_inj h.wordy hwordy hne (List.cons_ne_nil x ws)

end Classification

open Classification (VerbPhrase verbTokens collapsed reread Stable)

/-- A statement without a shape and without tables has the phrase of its verbs for a fingerprint,
and this has the phrase that is read back from it, which is the same just where it is stable. -/
theorem fingerprint_fingerprint (q : Text) (hraw : Classification.ofRaw? q = none)
    (hbare : Classification.ofBare? (Comment.erase q) = none) (htables : tablesOf q = []) :
    fingerprint q = Text.spaced (collapsed (verbTokens (Comment.erase q))) ∧
      fingerprint (fingerprint q) =
        Text.spaced (reread (collapsed (verbTokens (Comment.erase q)))) ∧
      (fingerprint (fingerprint q) = fingerprint q ↔
        Stable (collapsed (verbTokens (Comment.erase q)))) := by
  have hphrase := Classification.verbPhrase_collapsed (Comment.erase q)
  have hfingerprint : fingerprint q = Text.spaced (collapsed (verbTokens (Comment.erase q))) := by
    have hnone : Classification.tablesBehind (verbTokens (Comment.erase q)) [] = [] := by
      rw [Classification.tablesBehind]
      split <;> rfl
    rw [Classification.fingerprint_of_unclaimed hraw hbare, htables, hnone, List.append_nil]
  rw [hfingerprint, hphrase.fingerprint_spaced]
  exact ⟨rfl, rfl, hphrase.spaced_reread_iff⟩

/-- Only SELECT stands behind INSERT and behind UPDATE, and one of them has a long s. -/
theorem fingerprint_fingerprint_select :
    Classification.ofRaw? "insert(\u017felect), update (select)".toList = none ∧
      Classification.ofBare? (Comment.erase "insert(\u017felect), update (select)".toList) = none ∧
      tablesOf "insert(\u017felect), update (select)".toList = [] ∧
      fingerprint "insert(\u017felect), update (select)".toList =
        "INSERT SELECT UPDATE SELECT".toList ∧
      fingerprint (fingerprint "insert(\u017felect), update (select)".toList) =
        fingerprint "insert(\u017felect), update (select)".toList := by
  have hraw : Classification.ofRaw? "insert(\u017felect), update (select)".toList = none :=
    Option.isNone_iff_eq_none.mp (by decide +kernel)
  have hbare : Classification.ofBare?
      (Comment.erase "insert(\u017felect), update (select)".toList) = none :=
    Option.isNone_iff_eq_none.mp (by decide +kernel)
  have htables : tablesOf "insert(\u017felect), update (select)".toList = [] := by decide +kernel
  obtain ⟨hfirst, _, hstable⟩ := fingerprint_fingerprint _ hraw hbare htables
  exact ⟨hraw, hbare, htables, hfirst.trans (by decide +kernel), hstable.mpr (by decide +kernel)⟩

/-- Behind a first INSERT the next verb is taken for a table, and again behind UPDATE. -/
theorem fingerprint_fingerprint_ne : ¬ ∀ q : Text, Classification.ofRaw? q = none →
    Classification.ofBare? (Comment.erase q) = none → tablesOf q = [] →
      fingerprint (fingerprint q) = fingerprint q := by
  intro h
  have hsame := h "GRANT INSERT, UPDATE, DELETE ON db.* TO u".toList
    (Option.isNone_iff_eq_none.mp (by decide +kernel))
    (Option.isNone_iff_eq_none.mp (by decide +kernel)) (by decide +kernel)
  revert hsame
  decide +kernel

end QueryDigest
