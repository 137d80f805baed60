import QueryDigest.Proofs.Statement.ShowPatterns
import QueryDigest.Proofs.Statement.SpacedWords
import QueryDigest.Proofs.Statement.WordVerbs

/-!
Phrases of verbs. A statement that no shape claims is described by a phrase of the verbs in it, all
in upper case, of which only the first can be one that counts at the start alone. Such a phrase is a
statement too, and one that starts with SHOW is claimed as a SHOW statement, which keeps two of the
verbs behind it.
-/

namespace QueryDigest

open Pattern
open TableClause (Unkeyed)
open Unicode (foldLetter isBlank)

namespace Unicode

theorem upper_upper {w : Text} (h : (w.map foldLetter).all Char.isUpper = true) :
    upper (upper w) = upper w := by
  have hchar : ∀ {c}, (foldLetter c).isUpper = true → upper (upperChar c) = upperChar c :=
    letter_all (P := fun c => upper (upperChar c) = upperChar c) (by decide) (by decide)
      (by decide)
  induction w with
  | nil => rfl
  | cons c w ih =>
      rw [List.map_cons, List.all_cons, Bool.and_eq_true] at h
      change upper (upperChar c ++ upper w) = upperChar c ++ upper w
      rw [upper_append, hchar h.1, ih h.2]

end Unicode

namespace Classification

/-! ### Phrases of verbs -/

/-- A phrase that a statement without a shape can be described by. -/
structure VerbPhrase (vs : List Text) : Prop where
  verbal : ∀ x ∈ vs, Verbal x
  upper : ∀ x ∈ vs, Unicode.upper x = x
  tail : ∀ x ∈ vs.tail, x ∈ innerVerbs
  settled : collapsed vs = vs

theorem counts_of_mem_verbTokens {t x : Text} (h : x ∈ verbTokens t) :
    ∃ run, CountsAsVerb run ∧ Unicode.upper run.2 = x := by
  obtain ⟨run, hrun, rfl⟩ := List.mem_map.mp h
  exact ⟨run, of_decide_eq_true (List.mem_filter.mp hrun).2, rfl⟩

theorem verbal_of_mem_verbTokens {t x : Text} (h : x ∈ verbTokens t) : Verbal x := by
  obtain ⟨run, hinner | ⟨_, hleading⟩, rfl⟩ := counts_of_mem_verbTokens h
  · exact Or.inl (reads_upper isUpper_innerVerbs hinner)
  · exact Or.inr (reads_upper isUpper_leadingVerbs hleading)

theorem upper_of_mem_verbTokens {t x : Text} (h : x ∈ verbTokens t) : Unicode.upper x = x := by
  obtain ⟨run, hcounts, rfl⟩ := counts_of_mem_verbTokens h
  exact Unicode.upper_upper (hcounts.elim (isUpper_innerVerbs _) fun hleading =>
    isUpper_leadingVerbs _ hleading.2)

/-- In upper case only a keyword with a K can be spelled in another way than the keyword. -/
theorem eq_of_upper {x k : Text} (hx : Unicode.upper x = x) (hfold : x.map foldLetter = k)
    (hupper : k.all Char.isUpper = true) (hk : 'K' ∉ k) : x = k :=
  hx.symm.trans (Unicode.upper_of_fold hfold hupper hk)

theorem mem_innerVerbs {x : Text} (hx : Unicode.upper x = x) (hreads : Reads innerVerbs x) :
    x ∈ innerVerbs := by
  have hkelvin : ∀ k ∈ innerVerbs, 'K' ∉ k := by decide
  rw [eq_of_upper hx rfl (isUpper_innerVerbs _ hreads) (hkelvin _ hreads)]
  exact hreads

theorem collapsed_collapsed (tokens : List Text) :
    collapsed (collapsed tokens) = collapsed tokens := by
  by_cases h : 1 < (tokens.destutter (· ≠ ·)).length ∧
      (tokens.destutter (· ≠ ·)).head? = some "SELECT".toList
  · have hcut : collapsed tokens =
        if (tokens.destutter (· ≠ ·)).contains "UNION".toList then
          ["SELECT".toList, "UNION".toList]
        else ["SELECT".toList] := if_pos h
    rw [hcut]
    split <;> decide
  · have hkept : collapsed tokens = tokens.destutter (· ≠ ·) := if_neg h
    rw [hkept, collapsed, List.destutter_idem, if_neg h]

/-- The words that describe a statement without a shape are such a phrase. -/
theorem verbPhrase_collapsed (t : Text) : VerbPhrase (collapsed (verbTokens t)) where
  verbal x hx := verbal_of_mem_verbTokens (mem_of_mem_collapsed hx)
  upper x hx := upper_of_mem_verbTokens (mem_of_mem_collapsed hx)
  tail x hx := by
    have htoken := mem_of_mem_collapsed (List.mem_of_mem_tail hx)
    exact mem_innerVerbs (upper_of_mem_verbTokens htoken)
      ((verbal_of_mem_verbTokens htoken).resolve_right (reads_tail_collapsed t x hx))
  settled := collapsed_collapsed _

/-- The fingerprint of a statement without a shape. -/
theorem fingerprint_of_unclaimed {q : Text} (hraw : ofRaw? q = none)
    (hbare : ofBare? (Comment.erase q) = none) :
    fingerprint q = Text.spaced (collapsed (verbTokens (Comment.erase q))) ++
      tablesBehind (verbTokens (Comment.erase q)) (tablesOf q) := by
  obtain ⟨hhead, htail⟩ := reads_verbsBehind (Comment.erase q)
  have hwords : (verbWords (withoutRepeats (verbTokens (Comment.erase q)))).words =
      Text.spaced (collapsed (verbTokens (Comment.erase q))) := by
    rw [← settled_eq_collapsed]
    rfl
  rw [← verbTokens_eq] at hhead htail
  rw [fingerprint, ofStatement_of_unclaimed hraw hbare, verbsIn_eq, ← verbTokens_eq,
    VerbList.compose ⟨hhead, htail⟩, hwords]

/-! ### Phrases that start with SHOW -/

theorem fold_innerVerbs : ∀ k ∈ innerVerbs, k.map foldLetter = k := by
  decide

theorem verbal_of_inner {w : Text} (hw : w ∈ innerVerbs) : Verbal w := by
  rw [← fold_innerVerbs w hw] at hw
  exact Or.inl hw

theorem Verbal.unkeyed {x : Text} (hx : Verbal x) : Unkeyed x := by
  have hkeywords : ∀ k ∈ innerVerbs ++ leadingVerbs, k ≠ [] ∧ 'Y' ∉ k := by decide
  obtain ⟨hne, hy⟩ := hkeywords _ hx.mem
  exact ⟨⟨List.map_eq_nil_iff.not.mp hne,
    isWord_of_reads (fun k hk => (keywords_nonempty k hk).2) hx.mem⟩, hy⟩

theorem exists_texts {ws : List Text} (h : ∀ w ∈ ws, TableClause.Wordy w) :
    ∃ gs : List Gapped, gs.map (·.word) = ws ∧ Gapped.texts gs = ws.flatMap (' ' :: ·) := by
  induction ws with
  | nil => exact ⟨[], rfl, rfl⟩
  | cons w ws ih =>
      obtain ⟨hw, hws⟩ := List.forall_mem_cons.mp h
      obtain ⟨gs, hwords, htexts⟩ := ih hws
      refine ⟨⟨[' '], w, Text.blank_space, hw.1, hw.2⟩ :: gs, by rw [List.map_cons, hwords], ?_⟩
      rw [Gapped.texts_cons, htexts]
      rfl

/-- No pass over a SHOW statement finds anything among verbs. -/
theorem shortened_show {gs : List Gapped} (h : ∀ g ∈ gs, g.word ∈ innerVerbs)
    (hupper : Unicode.upper ("SHOW".toList ++ Gapped.texts gs) =
      "SHOW".toList ++ Gapped.texts gs) :
    shortened ("SHOW".toList ++ Gapped.texts gs) = "SHOW".toList ++ Gapped.texts gs := by
  have hwords : ∀ k ∈ innerVerbs, k ∉ fillerWords ∧ ¬ "COUNT".toList <+: k ∧ k ∉ clauseWords := by
    decide
  have hend : ∀ c, ([] : Text).head? = some c → isBlank c = true := fun _ hc => nomatch hc
  have hfiller := replaceAll_show (p := showFiller)
    (q := anyOf (fillerWords.map exactly) ++ wordEdge) (fun _ _ => rfl)
    (turns_kept (r := [' ']) hend (fun g hg before _ hedge =>
      turns_filler_kept g hedge before (hwords _ (h g hg)).1) _)
  have hcount := replaceAll_show (p := showCount)
    (q := exactly "COUNT".toList ++ (someOf (· != ')') ++ char ')')) (fun _ _ => rfl)
    (turns_counts hend (fun g hg => (hwords _ (h g hg)).2.1) _)
  have hclause := replaceAll_show (p := showClause)
    (q := anyOf (clauseWords.map exactly) ++ (wordEdge ++ someOf anyChar)) (fun _ _ => rfl)
    (turns_kept (r := []) hend (fun g hg before _ hedge =>
      turns_clause_kept g hedge (hwords _ (h g hg)).2.2 before) _)
  rw [shortened, hupper, hfiller, removeAll, removeAll, hcount, hclause]

section

variable {ws : List Text} (hws : ∀ w ∈ ws, w ∈ innerVerbs)

include hws

theorem wordy_show : ∀ w ∈ "SHOW".toList :: ws, TableClause.Wordy w :=
  List.forall_mem_cons.mpr ⟨⟨by decide, by decide⟩,
    fun w hw => (verbal_of_inner (hws w hw)).unkeyed.wordy⟩

/-- A phrase that starts with SHOW is in capitals and has nothing of a synonym. -/
theorem chars_show : ∀ c ∈ Text.spaced ("SHOW".toList :: ws),
    (c.toNat < 0x80 ∧ c.toUpper = c) ∧ c ∉ ['M', 'Y', 'X'] := by
  have hchars : ∀ k ∈ "SHOW".toList :: innerVerbs, ∀ c ∈ k,
      (c.toNat < 0x80 ∧ c.toUpper = c) ∧ c ∉ ['M', 'Y', 'X'] := by
    decide
  refine Text.forall_mem_spaced (by decide) fun w hw => hchars w ?_
  exact (List.mem_cons.mp hw).elim (fun h => h ▸ List.mem_cons_self) fun hw =>
    List.mem_cons_of_mem _ (hws w hw)

theorem upper_show : Unicode.upper (Text.spaced ("SHOW".toList :: ws)) =
    Text.spaced ("SHOW".toList :: ws) := by
  have hchars := chars_show hws
  rw [Unicode.upper_of_ascii fun c hc => (hchars c hc).1.1]
  exact (List.map_congr_left fun c hc => (hchars c hc).1.2).trans (List.map_id _)

theorem ofStatement_show (hne : ws ≠ []) : ofStatement (Text.spaced ("SHOW".toList :: ws)) =
    .showing (Text.spaced ("SHOW".toList :: ws.take 2)) := by
  have hwordy := wordy_show hws
  obtain ⟨gs, hwords, htexts⟩ := exists_texts fun w hw => hwordy w (List.mem_cons_of_mem _ hw)
  have hsplit : Text.spaced ("SHOW".toList :: ws) = "SHOW".toList ++ Gapped.texts gs := by
    rw [Text.spaced_cons, htexts]
  have hgs : gs ≠ [] := by
    rintro rfl
    exact hne hwords.symm
  have hinner : ∀ g ∈ gs, g.word ∈ innerVerbs := fun g hg =>
    hws g.word (hwords ▸ List.mem_map_of_mem hg)
  have herase := Comment.erase_spaced hwordy
  have hupper := upper_show hws
  rw [hsplit] at herase hupper ⊢
  have hbare : Comment.erase ("SHOW".toList ++ Gapped.texts gs) =
      "SHOW".toList ++ (Gapped.texts gs ++ []) := by
    rw [herase, List.append_nil]
  have hraw : ofRaw? ("SHOW".toList ++ Gapped.texts gs) = none :=
    ofRaw?_eq_none (k := "SHOW".toList) ⟨"SHOW".toList, Gapped.texts gs, rfl, rfl⟩ (by decide)
  rw [ofStatement_of_texts hgs hraw hbare, herase,
    showPhrase_of_texts (shortened_show hinner hupper), hwords]

/-- Behind SHOW two verbs are kept. -/
theorem fingerprint_show : fingerprint (Text.spaced ("SHOW".toList :: ws)) =
    Text.spaced ("SHOW".toList :: ws.take 2) := by
  by_cases hne : ws = []
  · subst hne
    decide +kernel
  · have htake : ∀ w ∈ ws.take 2, w ∈ innerVerbs := fun w hw => hws w (List.mem_of_mem_take hw)
    have hchars := chars_show htake
    have hstarts : "SHOW".toList <+: Text.spaced ("SHOW".toList :: ws.take 2) := by
      rw [Text.spaced_cons]
      exact List.prefix_append _ _
    rw [fingerprint, ofStatement_show hws hne, compose_showing hstarts]
    exact unifySynonyms_eq fun z hz hmem => (hchars z hmem).2 hz

end

end Classification
end QueryDigest
