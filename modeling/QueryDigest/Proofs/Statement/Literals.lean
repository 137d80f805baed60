import Mathlib.Data.Bool.AllAny
import QueryDigest.Proofs.Pattern.Outline
import QueryDigest.Proofs.Statement.DataDefinition
import QueryDigest.Statement.Fingerprint

/-!
Literals and the tables of a statement. The passes in front of the blanking of literals change what
stands inside a literal and around it apart from each other, and the blanking then leaves a question
mark for it, so that no table depends on what a literal says.
-/

namespace QueryDigest.Extraction

open Pattern

def quotes : Text := ['\'', '"']

/-- A character that neither opens a literal nor escapes a quote. -/
def Harmless (c : Char) : Prop :=
  c ≠ '\'' ∧ c ≠ '"' ∧ c ≠ '\\'

instance : DecidablePred Harmless :=
  fun _ => inferInstanceAs (Decidable (_ ∧ _ ∧ _))

theorem not_mem_of_harmless {t : Text} (h : ∀ c ∈ t, Harmless c) :
    '\'' ∉ t ∧ '"' ∉ t ∧ '\\' ∉ t :=
  ⟨fun hmem => (h _ hmem).1 rfl, fun hmem => (h _ hmem).2.1 rfl, fun hmem => (h _ hmem).2.2 rfl⟩

/-- A change of a text that goes on behind a quote as if the text started there, and brings in
harmless characters only. -/
def KeepsLiterals (q : Char) (f : Text → Text) : Prop :=
  ∀ p, ∃ p', ∃ behind : Text → Text, (∀ c ∈ p', c ∈ p ∨ Harmless c) ∧
    ∀ b, ∃ b', (∀ c ∈ b', c ∈ b ∨ Harmless c) ∧
      ∀ s, f (p ++ q :: (b ++ q :: s)) = p' ++ q :: (b' ++ q :: behind s)

theorem KeepsLiterals.comp {q : Char} {f g : Text → Text} (hf : KeepsLiterals q f)
    (hg : KeepsLiterals q g) : KeepsLiterals q fun t => g (f t) := by
  intro p
  obtain ⟨p', behind, hp', hbody⟩ := hf p
  obtain ⟨p'', behind', hp'', hbody'⟩ := hg p'
  refine ⟨p'', fun s => behind' (behind s), ?_, ?_⟩
  · intro c hc
    obtain hc | hc := hp'' c hc
    · exact hp' c hc
    · exact Or.inr hc
  · intro b
    obtain ⟨b', hb', hf⟩ := hbody b
    obtain ⟨b'', hb'', hg⟩ := hbody' b'
    refine ⟨b'', ?_, ?_⟩
    · intro c hc
      obtain hc | hc := hb'' c hc
      · exact hb' c hc
      · exact Or.inr hc
    · intro s
      simp only [hf, hg]

/-! ### The passes in front of the blanking -/

section

variable {q : Char} (hq : q ∈ quotes)

include hq

theorem keepsLiterals_replaceAll {p : Pattern} (hp : p.Near) (havoid : p.avoids quotes = true)
    {r : Text} (hr : ∀ c ∈ r, Harmless c) : KeepsLiterals q (p.replaceAll fun _ => r) := by
  intro u
  obtain ⟨u', hu', hfront⟩ := write_stop hp quotes havoid hq r [] u
  refine ⟨u', fun s => write (fun _ => r) (p.outlineFrom 0 [q] s), ?_, ?_⟩
  · intro c hc
    exact (hu' c hc).imp_right (hr c)
  · intro b
    obtain ⟨b', hb', hbody⟩ := write_stop hp quotes havoid hq r [q] b
    refine ⟨b', ?_, ?_⟩
    · intro c hc
      exact (hb' c hc).imp_right (hr c)
    · intro s
      rw [replaceAll_const, hfront, hbody]

theorem keepsLiterals_modifier : KeepsLiterals q (modifier.replaceAll fun _ => [' ']) := by
  apply keepsLiterals_replaceAll hq
  · simp [modifier]
  · decide
  · simp [Harmless]

theorem keepsLiterals_lockMode : KeepsLiterals q lockMode.removeAll := by
  apply keepsLiterals_replaceAll hq
  · simp [lockMode]
  · decide
  · simp

theorem find_lockOpening (p : Text) :
    (∀ v, lockOpening.find (p ++ q :: v) = none) ∨
      ∃ more, (∀ c ∈ more, c ∈ p) ∧ ∀ v, ∃ h, lockOpening.find (p ++ q :: v) = some h ∧
        h.stop.after = more ++ q :: v := by
  have hanchored : lockOpening.Anchored :=
    ((anchored_textStart.append maybeBlanks).append _).append blanks
  have hnear : lockOpening.Near := by simp [lockOpening]
  have havoid : lockOpening.avoids quotes = true := by decide
  have hrel := fun v => matchAt?_sameUpTo hnear havoid (rfl : ([] : Text).head? = _)
    ((Text.upTo_append hq p v).symm)
  simp only [find_anchored hanchored, Cursor.start]
  cases hmatch : lockOpening.matchAt? ⟨[], p ++ [q]⟩ with
  | none => exact Or.inl fun v => none_of_rel (hrel v) hmatch
  | some h =>
      obtain ⟨more, hmore⟩ := hit_within hnear havoid hq hmatch
      refine Or.inr ⟨more, ?_, ?_⟩
      · intro c hc
        rw [← hmore]
        exact List.mem_append_right _ hc
      · intro v
        obtain ⟨k, hk, hfound, _⟩ := hit_of_rel (hrel v) hmatch
        have htext : h.text = k.text := Hit.text_eq_of_found hfound
        refine ⟨k, hk, ?_⟩
        have hafter : p ++ q :: v = k.text ++ k.stop.after := (matchAt?_text hk).2.2
        rw [← hmore, htext, List.append_assoc] at hafter
        exact (List.append_cancel_left hafter).symm

theorem keepsLiterals_withLocks : KeepsLiterals q fun t => withLocks (locked? t) t := by
  intro p
  obtain hnone | ⟨more, hmore, hfind⟩ := find_lockOpening hq p
  · refine ⟨p, id, fun c hc => Or.inl hc, ?_⟩
    intro b
    refine ⟨b, fun c hc => Or.inl hc, ?_⟩
    intro s
    simp only [locked?, hnone]
    rfl
  · obtain ⟨more', behind, hmore', hbody⟩ := keepsLiterals_lockMode hq more
    refine ⟨"FROM ".toList ++ more', behind, ?_, ?_⟩
    · intro c hc
      obtain hc | hc := List.mem_append.mp hc
      · have hfrom : ∀ d ∈ "FROM ".toList, Harmless d := List.all_iff_forall_prop.mp (by decide)
        exact Or.inr (hfrom c hc)
      · exact (hmore' c hc).imp_left (hmore c)
    · intro b
      obtain ⟨b', hb', hremove⟩ := hbody b
      refine ⟨b', hb', ?_⟩
      intro s
      obtain ⟨h, hh, hstop⟩ := hfind (b ++ q :: s)
      simp only [locked?, hh, Option.map_some, hstop, hremove, withLocks, List.append_assoc]

/-- The text in which the clauses of a statement are looked for, before literals are blanked. -/
def unlocked (t : Text) : Text :=
  let plain := modifier.replaceAll (fun _ => [' ']) t
  withLocks (locked? plain) plain

theorem keepsLiterals_unlocked : KeepsLiterals q unlocked :=
  (keepsLiterals_modifier hq).comp (keepsLiterals_withLocks hq)

end

/-! ### The blanking of literals -/

theorem ne_of_split {t u v : Text} {c x : Char} (hx : x ∉ t) (h : t = u ++ c :: v) : c ≠ x := by
  rintro rfl
  exact hx (h ▸ List.mem_append_right u List.mem_cons_self)

theorem replaceAll_elsewhere {p : Pattern} (hp : p.Near) {x : Char}
    (hmatch : ∀ {c}, c ≠ x → ∀ before rest, p.matchAt? ⟨before, c :: rest⟩ = none) {u b : Text}
    {q : Char} (hu : x ∉ u) (hb : x ∉ b) (hq : q ≠ x) (r s : Text) :
    p.replaceAll (fun _ => r) (u ++ q :: (b ++ q :: s)) =
      u ++ q :: (b ++ q :: write (fun _ => r) (p.outlineFrom 0 [q] s)) := by
  have hsplit : ∀ v, u ++ q :: (b ++ q :: v) = (u ++ q :: (b ++ [q])) ++ v := by simp
  have hx : x ∉ u ++ q :: (b ++ [q]) := by simp [hu, hb, hq.symm]
  rw [replaceAll_const, hsplit,
    outlineFrom_of_no_match [] s fun u₁ c u₂ h => hmatch (ne_of_split hx h) _ _, write_append,
    write_map_kept, outlineFrom_before hp 0 _ [q] (by simp)]
  exact (hsplit _).symm

theorem near_escapedQuote : escapedQuote.Near := by
  simp [escapedQuote]

theorem near_literal (q : Char) : (literal q).Near := by
  simp [literal]

theorem matchAt?_escapedQuote {c : Char} (h : c ≠ '\\') (before rest : Text) :
    escapedQuote.matchAt? ⟨before, c :: rest⟩ = none := by
  simp [matchAt?, escapedQuote, run_append, char, run, h]

theorem matchAt?_literal {q c : Char} (h : c ≠ q) (before rest : Text) :
    (literal q).matchAt? ⟨before, c :: rest⟩ = none := by
  simp [matchAt?, literal, run_append, char, run, h]

/-- A text without quotes and backslashes has nothing to blank. -/
theorem blankLiterals_of_not_mem {t : Text} (h : ∀ x ∈ ['\\', '"', '\''], x ∉ t) :
    blankLiterals t = t := by
  have hescaped : escapedQuote.removeAll t = t :=
    replaceAll_of_no_match (fun u _ v hsplit =>
      matchAt?_escapedQuote (ne_of_split (h '\\' (by decide)) hsplit) u.reverse v) []
  have hliteral : ∀ q ∈ quotes, (literal q).replaceAll (fun _ => ['?']) t = t := fun q hq =>
    replaceAll_of_no_match (fun u _ v hsplit => matchAt?_literal
      (ne_of_split (h q (by revert q; decide)) hsplit) u.reverse v) ['?']
  rw [blankLiterals, hescaped, hliteral '"' (by decide), hliteral '\'' (by decide)]

/-- Words, white space and marks other than quotes and backslashes have nothing to blank. -/
theorem blankLiterals_of_chars {t : Text}
    (h : ∀ c ∈ t, Unicode.isWord c = true ∨ Unicode.isBlank c = true ∨ c ∈ "*(),=".toList) :
    blankLiterals t = t := by
  have hmarks : ∀ x ∈ ['\\', '"', '\''],
      ¬ (Unicode.isWord x = true ∨ Unicode.isBlank x = true ∨ x ∈ "*(),=".toList) := by
    decide
  exact blankLiterals_of_not_mem fun x hx hmem => hmarks x hx (h x hmem)

theorem matchAt?_literal_closed {q : Char} {b : Text} (hb : q ∉ b) (before s : Text) :
    (literal q).matchAt? ⟨before, q :: (b ++ q :: s)⟩ =
      some ⟨⟨before, q :: (b ++ q :: s)⟩, b.length + 2, []⟩ := by
  have hbody : ∀ c ∈ b, (c != q) = true := by
    intro c hc
    exact bne_iff_ne.mpr fun h => hb (h ▸ hc)
  have htake : (b ++ q :: s).takeWhile (· != q) = b := by
    rw [List.takeWhile_append_of_pos hbody, List.takeWhile_cons_of_neg (by simp), List.append_nil]
  have hdrop : (b ++ q :: s).dropWhile (· != q) = q :: s := by
    rw [List.dropWhile_append_of_pos hbody, List.dropWhile_cons_of_neg (by simp)]
  rw [matchAt?, literal, run_append, run_append]
  simp only [char, allOf, run_one, run_all, Attempt.furthest_eq_take]
  simp [Attempt.next?, htake, hdrop, Attempt.take, Nat.add_comm, Nat.add_left_comm]

/-- A literal gives way to the text that is written for it, whatever it says. -/
theorem replaceAll_literal {p b : Text} {q : Char} (hp : q ∉ p) (hb : q ∉ b) (r s : Text) :
    (literal q).replaceAll (fun _ => r) (p ++ q :: (b ++ q :: s)) =
      p ++ (r ++ write (fun _ => r) ((literal q).outlineFrom 0 [q] s)) := by
  have hmatch := matchAt?_literal_closed hb (p.reverse ++ []) s
  have htext : Hit.text ⟨⟨p.reverse ++ [], q :: (b ++ q :: s)⟩, b.length + 2, []⟩ =
      q :: (b ++ [q]) := by
    simp [Hit.text, List.take_append, List.take_of_length_le]
  have hsplit : b ++ q :: s = (b ++ [q]) ++ s := by
    rw [List.append_assoc, List.singleton_append]
  rw [replaceAll_const,
    outlineFrom_of_no_match [] _ fun u₁ c u₂ h => matchAt?_literal (ne_of_split hp h) _ _,
    write_append, write_map_kept, outlineFrom_hit hmatch htext, write_found, hsplit,
    outlineFrom_skip, outlineFrom_before (near_literal q) 0 _ [q] (by simp)]

theorem blankLiterals_single {p b b' : Text} (hp : ∀ c ∈ p, Harmless c)
    (hb : ∀ c ∈ b, Harmless c) (hb' : ∀ c ∈ b', Harmless c) (s : Text) :
    blankLiterals (p ++ '\'' :: (b ++ '\'' :: s)) =
      blankLiterals (p ++ '\'' :: (b' ++ '\'' :: s)) := by
  obtain ⟨hp1, hp2, hp3⟩ := not_mem_of_harmless hp
  obtain ⟨hb1, hb2, hb3⟩ := not_mem_of_harmless hb
  obtain ⟨hb1', hb2', hb3'⟩ := not_mem_of_harmless hb'
  simp only [blankLiterals, removeAll]
  rw [replaceAll_elsewhere near_escapedQuote matchAt?_escapedQuote hp3 hb3 (by decide),
    replaceAll_elsewhere near_escapedQuote matchAt?_escapedQuote hp3 hb3' (by decide),
    replaceAll_elsewhere (near_literal _) matchAt?_literal hp2 hb2 (by decide),
    replaceAll_elsewhere (near_literal _) matchAt?_literal hp2 hb2' (by decide),
    replaceAll_literal hp1 hb1, replaceAll_literal hp1 hb1']

theorem blankLiterals_double {p b b' : Text} (hp : ∀ c ∈ p, Harmless c)
    (hb : '"' ∉ b ∧ '\\' ∉ b) (hb' : '"' ∉ b' ∧ '\\' ∉ b') (s : Text) :
    blankLiterals (p ++ '"' :: (b ++ '"' :: s)) =
      blankLiterals (p ++ '"' :: (b' ++ '"' :: s)) := by
  obtain ⟨_, hp2, hp3⟩ := not_mem_of_harmless hp
  simp only [blankLiterals, removeAll]
  rw [replaceAll_elsewhere near_escapedQuote matchAt?_escapedQuote hp3 hb.2 (by decide),
    replaceAll_elsewhere near_escapedQuote matchAt?_escapedQuote hp3 hb'.2 (by decide),
    replaceAll_literal hp2 hb.1, replaceAll_literal hp2 hb'.1]

/-! ### Tables -/

/-- The text in which the clauses of a statement are looked for. -/
def scanned (t : Text) : Text :=
  spellInto (blankLiterals (unlocked t))

theorem tables_ofClauses_eq (t : Text) :
    (ofClauses t).tables =
      if loadOpening.occursIn (scanned t) then (LoadTarget.ofStatement? (scanned t)).toList
      else (TableClause.lists (scanned t)).flatMap TableClause.tables := by
  change Extraction.tables (if loadOpening.occursIn (scanned t) then _ else _) = _
  split <;> rfl

theorem tables_ofClauses {t t' : Text} (h : scanned t = scanned t') :
    (ofClauses t).tables = (ofClauses t').tables := by
  rw [tables_ofClauses_eq, tables_ofClauses_eq, h]

theorem tablesOf_eq_of_scanned {t t' : Text} (ht : DefinitionVerb.ofStatement? t = none)
    (ht' : DefinitionVerb.ofStatement? t' = none) (h : scanned t = scanned t') :
    tablesOf t = tablesOf t' := by
  rw [tablesOf, tablesOf, ofStatement, ofStatement, ht, ht']
  exact congrArg List.eraseDups (tables_ofClauses h)

/-- No statement about clauses becomes a data definition by what stands behind a quote. -/
theorem ofStatement?_quote {p : Text} (h : DefinitionVerb.ofStatement? (p ++ ['\'']) = none)
    {q : Char} (hq : q ∈ quotes) (v : Text) :
    DefinitionVerb.ofStatement? (p ++ q :: v) = none := by
  have hfacts : ∀ x ∈ quotes, Unicode.isBlank x = false ∧ Unicode.isWord x = false :=
    List.all_iff_forall_prop.mp (by decide)
  obtain ⟨hblank, hword⟩ := hfacts q hq
  cases hverb : DefinitionVerb.ofStatement? (p ++ q :: v) with
  | none => rfl
  | some verb =>
      have hopens := (DefinitionVerb.ofStatement?_eq_some.mp hverb).change_behind hblank hword
        '\'' (by decide) (by decide) []
      rw [DefinitionVerb.ofStatement?_eq_some.mpr hopens] at h
      cases h

theorem tablesOf_literal {p : Text} (hp : ∀ c ∈ p, Harmless c)
    (hddl : DefinitionVerb.ofStatement? (p ++ ['\'']) = none) {q : Char} (hq : q ∈ quotes)
    {ok : Char → Prop} (hok : ∀ c, Harmless c → ok c)
    (hblank : ∀ {u b b' : Text} (s : Text), (∀ c ∈ u, Harmless c) → (∀ c ∈ b, ok c) →
      (∀ c ∈ b', ok c) →
        blankLiterals (u ++ q :: (b ++ q :: s)) = blankLiterals (u ++ q :: (b' ++ q :: s)))
    {b b' : Text} (hb : ∀ c ∈ b, ok c) (hb' : ∀ c ∈ b', ok c) (s : Text) :
    tablesOf (p ++ q :: b ++ q :: s) = tablesOf (p ++ q :: b' ++ q :: s) := by
  have hshape : ∀ d : Text, p ++ q :: d ++ q :: s = p ++ q :: (d ++ q :: s) := by simp
  obtain ⟨u, behind, hu, hbody⟩ := keepsLiterals_unlocked hq p
  obtain ⟨d, hd, hkeep⟩ := hbody b
  obtain ⟨d', hd', hkeep'⟩ := hbody b'
  rw [hshape, hshape]
  apply tablesOf_eq_of_scanned (ofStatement?_quote hddl hq _) (ofStatement?_quote hddl hq _)
  rw [scanned, scanned, hkeep, hkeep']
  congr 1
  apply hblank
  · exact fun c hc => (hu c hc).elim (hp c) id
  · exact fun c hc => (hd c hc).elim (hb c) (hok c)
  · exact fun c hc => (hd' c hc).elim (hb' c) (hok c)

theorem tablesOf_single {p : Text} (hp : ∀ c ∈ p, Harmless c)
    (hddl : DefinitionVerb.ofStatement? (p ++ ['\'']) = none) {b b' : Text}
    (hb : ∀ c ∈ b, Harmless c) (hb' : ∀ c ∈ b', Harmless c) (s : Text) :
    tablesOf (p ++ '\'' :: b ++ '\'' :: s) = tablesOf (p ++ '\'' :: b' ++ '\'' :: s) := by
  refine tablesOf_literal hp hddl (by decide) (fun _ h => h) ?_ hb hb' s
  intro u b b' s hu hb hb'
  exact blankLiterals_single hu hb hb' s

theorem tablesOf_double {p : Text} (hp : ∀ c ∈ p, Harmless c)
    (hddl : DefinitionVerb.ofStatement? (p ++ ['\'']) = none) {b b' : Text}
    (hb : ∀ c ∈ b, c ≠ '"' ∧ c ≠ '\\') (hb' : ∀ c ∈ b', c ≠ '"' ∧ c ≠ '\\') (s : Text) :
    tablesOf (p ++ '"' :: b ++ '"' :: s) = tablesOf (p ++ '"' :: b' ++ '"' :: s) := by
  refine tablesOf_literal hp hddl (by decide) (fun _ h => h.2) ?_ hb hb' s
  intro u b b' s hu hb hb'
  exact blankLiterals_double hu ⟨fun h => (hb _ h).1 rfl, fun h => (hb _ h).2 rfl⟩
    ⟨fun h => (hb' _ h).1 rfl, fun h => (hb' _ h).2 rfl⟩ s

/-- The tables of a statement other than a data definition do not depend on what a literal says. -/
theorem tablesOf_eq_of_literal (p s : Text) (hp : ∀ c ∈ p, c ≠ '\'' ∧ c ≠ '"' ∧ c ≠ '\\')
    (hddl : DefinitionVerb.ofStatement? (p ++ ['\'']) = none) :
    (∀ b₁ b₂ : Text, (∀ c ∈ b₁, c ≠ '\'' ∧ c ≠ '"' ∧ c ≠ '\\') →
      (∀ c ∈ b₂, c ≠ '\'' ∧ c ≠ '"' ∧ c ≠ '\\') →
        tablesOf (p ++ '\'' :: b₁ ++ '\'' :: s) = tablesOf (p ++ '\'' :: b₂ ++ '\'' :: s)) ∧
    (∀ b₁ b₂ : Text, (∀ c ∈ b₁, c ≠ '"' ∧ c ≠ '\\') → (∀ c ∈ b₂, c ≠ '"' ∧ c ≠ '\\') →
      tablesOf (p ++ '"' :: b₁ ++ '"' :: s) = tablesOf (p ++ '"' :: b₂ ++ '"' :: s)) := by
  constructor
  · intro b₁ b₂ hb₁ hb₂
    exact tablesOf_single hp hddl hb₁ hb₂ s
  · intro b₁ b₂ hb₁ hb₂
    exact tablesOf_double hp hddl hb₁ hb₂ s

/-- A clause and an open quote, inside a literal and behind it. -/
theorem tablesOf_eq_of_literal_clause :
    tablesOf ("select a from t where b = ".toList ++ '\'' :: " from u".toList
        ++ '\'' :: " or c in (\"".toList) =
      tablesOf ("select a from t where b = ".toList ++ '\'' :: []
        ++ '\'' :: " or c in (\"".toList) ∧
    tablesOf ("select a from t where b = ".toList ++ '"' :: "it's, join u".toList
        ++ '"' :: " or c = 'd".toList) =
      tablesOf ("select a from t where b = ".toList ++ '"' :: "x".toList
        ++ '"' :: " or c = 'd".toList) := by
  have hp : ∀ c ∈ "select a from t where b = ".toList, c ≠ '\'' ∧ c ≠ '"' ∧ c ≠ '\\' :=
    List.all_iff_forall_prop.mp (by decide)
  have hddl :
      DefinitionVerb.ofStatement? ("select a from t where b = ".toList ++ ['\'']) = none := by
    decide +kernel
  have hsame := tablesOf_eq_of_literal _ " or c in (\"".toList hp hddl
  have hsame' := tablesOf_eq_of_literal _ " or c = 'd".toList hp hddl
  constructor
  · apply hsame.1
    · exact List.all_iff_forall_prop.mp (by decide)
    · exact List.all_iff_forall_prop.mp (by decide)
  · apply hsame'.2
    · exact List.all_iff_forall_prop.mp (by decide)
    · exact List.all_iff_forall_prop.mp (by decide)

end QueryDigest.Extraction
