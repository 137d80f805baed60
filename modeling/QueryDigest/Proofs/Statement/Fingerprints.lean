import QueryDigest.Proofs.Statement.Comments
import QueryDigest.Proofs.Statement.Literals
import QueryDigest.Proofs.Statement.Verbs

/-!
Fingerprints of statements that differ in one literal. Tables are found with literals blanked out,
but verbs are looked for in the text as it stands, so that two such statements share a fingerprint
just where the verbs in and behind their literals come to the same phrase. A data definition reads
a literal like any other text.
-/

namespace QueryDigest

open Pattern
open Unicode (foldLetter isBlank)

namespace Classification

/-- Whether a shape keeps a part of the statement's text as it is written there. -/
def echoes : Classification → Bool
  | .procedureCall _ | .distributedTransaction _ | .bulkLoad _ | .administration _
  | .showing _ => true
  | .databaseChoice | .tableRelease | .definition .. | .verbWords _ => false

/-! ### The cascade -/

section

variable {t : Text} {c : Classification}

theorem echoes_of_procedureCall (h : procedureCall? t = some c) : c.echoes = true := by
  obtain ⟨hit, _, rfl⟩ := Option.map_eq_some_iff.mp h
  rfl

theorem echoes_of_distributedTransaction (h : distributedTransaction? t = some c) :
    c.echoes = true := by
  obtain ⟨hit, _, rfl⟩ := Option.map_eq_some_iff.mp h
  rfl

theorem echoes_of_bulkLoad (h : bulkLoad? t = some c) : c.echoes = true := by
  unfold bulkLoad? at h
  split at h
  · cases h
    rfl
  · cases h

theorem echoes_of_administration (h : administration? t = some c) : c.echoes = true := by
  unfold administration? at h
  split at h
  · cases h
    rfl
  · cases h

theorem echoes_of_showing (h : showing? t = some c) : c.echoes = true := by
  unfold showing? at h
  split at h
  · cases h
    rfl
  · cases h

theorem eq_none_of_echoes {shape : Option Classification}
    (h : ∀ {c}, shape = some c → c.echoes = true)
    (h' : ∀ {c}, shape = some c → c.echoes = false) : shape = none := by
  cases shape with
  | none => rfl
  | some c => exact absurd (h rfl) (by rw [h' rfl]; decide)

theorem ofStatement_of_raw (h : ofRaw? t = some c) : ofStatement t = c := by
  rw [ofStatement, h]

variable (hplain : (ofStatement t).echoes = false)

include hplain

theorem ofRaw?_of_not_echoes : ofRaw? t = (databaseChoice? t).or (tableRelease? t) := by
  have hfirst : ∀ {c}, ofRaw? t = some c → c.echoes = false := by
    intro c hc
    rwa [ofStatement_of_raw hc] at hplain
  have hcall : procedureCall? t = none :=
    eq_none_of_echoes echoes_of_procedureCall fun hc => hfirst (by simp [ofRaw?, hc])
  cases huse : databaseChoice? t with
  | some c => simp [ofRaw?, hcall, huse]
  | none =>
      cases hunlock : tableRelease? t with
      | some c => simp [ofRaw?, hcall, huse, hunlock]
      | none =>
          have hxa : distributedTransaction? t = none :=
            eq_none_of_echoes echoes_of_distributedTransaction fun hc =>
              hfirst (by simp [ofRaw?, hcall, huse, hunlock, hc])
          have hload : bulkLoad? t = none :=
            eq_none_of_echoes echoes_of_bulkLoad fun hc =>
              hfirst (by simp [ofRaw?, hcall, huse, hunlock, hxa, hc])
          have hadmin : administration? t = none :=
            eq_none_of_echoes echoes_of_administration fun hc =>
              hfirst (by simp [ofRaw?, hcall, huse, hunlock, hxa, hload, hc])
          simp [ofRaw?, hcall, huse, hunlock, hxa, hload, hadmin]

theorem ofStatement_of_not_echoes (hraw : ofRaw? t = none) :
    ofStatement t =
      (definition? (Comment.erase t)).getD (.verbWords (verbsIn (Comment.erase t))) := by
  have hshow : showing? (Comment.erase t) = none := by
    refine eq_none_of_echoes echoes_of_showing ?_
    intro c hc
    rw [ofStatement, hraw] at hplain
    simpa [ofBare?, hc] using hplain
  rw [ofStatement, hraw]
  cases hdefinition : definition? (Comment.erase t) with
  | none => simp [ofBare?, hshow, hdefinition]
  | some c => simp [ofBare?, hshow, hdefinition]

end

/-! ### Shapes in front of a literal -/

/-- Whether a statement chooses a database or releases its locks. -/
def opensSession (t : Text) : Bool :=
  useOpening.occursIn t || unlockOpening.occursIn t

theorem anchored_useOpening : useOpening.Anchored :=
  ((anchored_textStart.append maybeBlanks).append _).append blanks

theorem anchored_unlockOpening : unlockOpening.Anchored :=
  (anchored_textStart.append maybeBlanks).append _

theorem near_useOpening : useOpening.Near := by
  simp [useOpening]

theorem near_unlockOpening : unlockOpening.Near := by
  simp [unlockOpening]

theorem databaseChoice?_quote (p v : Text) :
    databaseChoice? (p ++ '\'' :: v) = databaseChoice? (p ++ ['\'']) := by
  rw [databaseChoice?, databaseChoice?, occursIn_upTo anchored_useOpening near_useOpening
    ['\''] (by decide) List.mem_cons_self]

theorem tableRelease?_quote (p v : Text) :
    tableRelease? (p ++ '\'' :: v) = tableRelease? (p ++ ['\'']) := by
  rw [tableRelease?, tableRelease?, occursIn_upTo anchored_unlockOpening near_unlockOpening
    ['\''] (by decide) List.mem_cons_self]

theorem leading_keyword {k : Text} {t : Text} {b : Attempt} {onward : Onward}
    (h : (textStart ++ maybeBlanks ++ keyword k).run (.start (.start t)) onward = some b) :
    ∃ w rest, t.dropWhile isBlank = w ++ rest ∧ w.map foldLetter = k.map foldLetter := by
  rw [run_append, run_leading] at h
  obtain ⟨w, rest, hafter, hw, _⟩ := run_keyword_eq_some h
  exact ⟨w, rest, hafter, hw⟩

theorem keyword_of_opensSession {t : Text} (h : opensSession t = true) :
    ∃ k ∈ ["USE".toList, "UNLOCK TABLES".toList], ∃ w rest,
      t.dropWhile isBlank = w ++ rest ∧ w.map foldLetter = k.map foldLetter := by
  rw [opensSession, Bool.or_eq_true, occursIn, occursIn, find_anchored anchored_useOpening,
    find_anchored anchored_unlockOpening] at h
  obtain h | h := h
  · obtain ⟨hit, hhit⟩ := Option.isSome_iff_exists.mp h
    obtain ⟨a, hrun, _⟩ := matchAt?_eq_some hhit
    rw [useOpening, run_append] at hrun
    exact ⟨_, List.mem_cons_self, leading_keyword hrun⟩
  · obtain ⟨hit, hhit⟩ := Option.isSome_iff_exists.mp h
    obtain ⟨a, hrun, _⟩ := matchAt?_eq_some hhit
    exact ⟨_, List.mem_cons_of_mem _ List.mem_cons_self, leading_keyword hrun⟩

theorem not_definition_of_opensSession {t : Text} (h : opensSession t = true) :
    DefinitionVerb.ofStatement? t = none := by
  obtain ⟨k, hk, w, rest, ht, hw⟩ := keyword_of_opensSession h
  cases hverb : DefinitionVerb.ofStatement? t with
  | none => rfl
  | some verb =>
      obtain ⟨w', rest', ht', hw', _⟩ := DefinitionVerb.ofStatement?_eq_some.mp hverb
      have hapart : ∀ verb : DefinitionVerb, ∀ k ∈ ["USE".toList, "UNLOCK TABLES".toList],
          ¬ verb.keyword.map foldLetter <+: k.map foldLetter ∧
            ¬ k.map foldLetter <+: verb.keyword.map foldLetter := by
        intro verb
        cases verb <;> decide
      obtain ⟨hverb', hk'⟩ := hapart verb k hk
      have hstart := fold_starts ht' ht
      rw [hw, hw'] at hstart
      obtain hstart | hstart := hstart
      · exact absurd hstart hverb'
      · exact absurd hstart hk'

end Classification

namespace Fingerprint

/-! ### What is shown of a literal -/

/-- The verbs in front of a literal, and those in what is left of it and of the text behind it. -/
def verbsAround (p behind : Text) : List Text :=
  Classification.verbsBehind [] (p ++ ['\'']) ++
    Classification.verbsBehind ['\''] (Comment.erasedBehind p behind)

/-- The verb, the kind and the names that a data definition is shown with. -/
def definitionWords (verb : DefinitionVerb) (t : Text) : List Text :=
  let bare := Classification.existenceClause.replaceAll (fun _ => [' ']) (Comment.erase t)
  let object := match Classification.namedObject.find bare with
    | some h => h.group 0
    | none => []
  verb.keyword :: ((ObjectKind.ofStatement? verb bare).map ObjectKind.keyword).toList
    ++ tables (tablesOf t) object

/-- What can be seen of a literal with the body `b` in a fingerprint: the verbs in it, in the phrase
that they belong to. A data definition is read for its kind and its names with the literal in it, so
that there every word that definitions are read for can be seen. -/
def shown (p b s : Text) : Text :=
  match DefinitionVerb.ofStatement? (p ++ ['\'']) with
  | some verb => Text.spaced (definitionWords verb (p ++ '\'' :: b ++ '\'' :: s))
  | none =>
    if Classification.opensSession (p ++ ['\'']) then []
    else Text.spaced (Classification.settled
      (Classification.withoutRepeats (verbsAround p (b ++ '\'' :: s))))

theorem compose_definition (verb : DefinitionVerb) (kind : Option ObjectKind) (object : Text)
    (found : List Text) :
    compose (.definition verb kind object) found =
      Text.spaced
        (verb.keyword :: (kind.map ObjectKind.keyword).toList ++ tables found object) := by
  have hapart : ∀ word ∈ ["SHOW".toList, "LOAD DATA".toList],
      word.isPrefixOf (Classification.definition verb kind object).words = false := by
    rw [List.forall_mem_cons, List.forall_mem_singleton]
    cases verb <;> rcases kind with _ | _ | _ <;> exact ⟨rfl, rfl⟩
  have hshow := hapart _ List.mem_cons_self
  have hload := hapart _ (List.mem_cons_of_mem _ List.mem_cons_self)
  rw [compose, hshow, hload, if_neg (by decide), if_neg (by decide)]
  cases kind with
  | none => rfl
  | some kind =>
      change Text.spaced (Text.spaced [verb.keyword, kind.keyword] :: tables found object) =
        Text.spaced (verb.keyword :: kind.keyword :: tables found object)
      rw [Text.spaced_cons, Text.spaced_cons, Text.spaced_cons]
      simp

section

variable {p b s : Text}
  (hp : ∀ c ∈ p, c ≠ '\'' ∧ c ≠ '"' ∧ c ≠ '\x60' ∧ c ≠ '\\') (hp' : Comment.Unmarked p)
  (hs : ∀ c ∈ s, c ≠ '\'' ∧ c ≠ '"' ∧ c ≠ '\x60' ∧ c ≠ '\\') (hs' : Comment.Unmarked s)
  (hb : ∀ c ∈ b, c ≠ '\'' ∧ c ≠ '"' ∧ c ≠ '\\')

include hp hp' hs hs' hb

theorem erase_around :
    Comment.erase (p ++ '\'' :: b ++ '\'' :: s) =
      p ++ '\'' :: Comment.erasedBehind p (b ++ '\'' :: s) := by
  have hquotes : ∀ c, c ≠ '\'' ∧ c ≠ '"' ∧ c ≠ '\x60' ∧ c ≠ '\\' → Comment.isQuote c = false := by
    rintro c ⟨hsingle, hdouble, hback, _⟩
    simp [Comment.isQuote, hsingle, hdouble, hback]
  rw [List.append_assoc, List.cons_append]
  exact Comment.erase_literal hp' (fun c hc => hquotes c (hp c hc))
    (fun c hc => ⟨(hb c hc).1, (hb c hc).2.2⟩) hs'
    (fun c hc => ⟨hquotes c (hs c hc), (hs c hc).2.2.2⟩)

theorem verbsIn_around :
    Classification.verbsIn (Comment.erase (p ++ '\'' :: b ++ '\'' :: s)) =
      Classification.withoutRepeats (verbsAround p (b ++ '\'' :: s)) := by
  rw [erase_around hp hp' hs hs' hb, Classification.verbsIn_eq,
    Classification.verbsBehind_append (by decide), verbsAround]

end

section

variable {p t : Text} (hplain : (Classification.ofStatement (p ++ '\'' :: t)).echoes = false)

include hplain

theorem ofRaw?_quote :
    Classification.ofRaw? (p ++ '\'' :: t) =
      (Classification.databaseChoice? (p ++ ['\''])).or
        (Classification.tableRelease? (p ++ ['\''])) := by
  rw [Classification.ofRaw?_of_not_echoes hplain, Classification.databaseChoice?_quote,
    Classification.tableRelease?_quote]

theorem ofRaw?_eq_none (h : Classification.opensSession (p ++ ['\'']) = false) :
    Classification.ofRaw? (p ++ '\'' :: t) = none := by
  rw [Classification.opensSession, Bool.or_eq_false_iff] at h
  rw [ofRaw?_quote hplain, Classification.databaseChoice?, Classification.tableRelease?, h.1, h.2]
  rfl

theorem fingerprint_of_session (h : Classification.opensSession (p ++ ['\'']) = true) :
    fingerprint (p ++ '\'' :: t) =
      compose (if Classification.useOpening.occursIn (p ++ ['\'']) then .databaseChoice
        else .tableRelease) (tablesOf (p ++ '\'' :: t)) := by
  have hraw : Classification.ofRaw? (p ++ '\'' :: t) =
      some (if Classification.useOpening.occursIn (p ++ ['\'']) then .databaseChoice
        else .tableRelease) := by
    rw [ofRaw?_quote hplain, Classification.databaseChoice?, Classification.tableRelease?]
    rw [Classification.opensSession, Bool.or_eq_true] at h
    by_cases huse : Classification.useOpening.occursIn (p ++ ['\'']) = true
    · rw [if_pos huse, if_pos huse]
      rfl
    · rw [if_neg huse, if_neg huse, if_pos (h.resolve_left huse)]
      rfl
  rw [fingerprint, Classification.ofStatement_of_raw hraw]

variable {seen : Text} (herase : Comment.erase (p ++ '\'' :: t) = p ++ '\'' :: seen)

include herase

theorem fingerprint_of_definition {verb : DefinitionVerb}
    (h : DefinitionVerb.ofStatement? (p ++ ['\'']) = some verb) :
    fingerprint (p ++ '\'' :: t) = Text.spaced (definitionWords verb (p ++ '\'' :: t)) := by
  have hsession : Classification.opensSession (p ++ ['\'']) = false := by
    rw [Bool.eq_false_iff]
    intro hsession
    rw [Classification.not_definition_of_opensSession hsession] at h
    cases h
  have hverb : DefinitionVerb.ofStatement? (p ++ '\'' :: seen) = some verb :=
    DefinitionVerb.ofStatement?_eq_some.mpr
      ((DefinitionVerb.ofStatement?_eq_some.mp h).change_behind (by decide) (by decide)
        '\'' (by decide) (by decide) seen)
  rw [fingerprint,
    Classification.ofStatement_of_not_echoes hplain (ofRaw?_eq_none hplain hsession),
    Classification.definition?, herase, hverb, definitionWords, herase]
  exact compose_definition verb _ _ _

theorem fingerprint_of_verbs (h : DefinitionVerb.ofStatement? (p ++ ['\'']) = none)
    (hsession : Classification.opensSession (p ++ ['\'']) = false) :
    fingerprint (p ++ '\'' :: t) =
      compose (.verbWords (Classification.verbsIn (p ++ '\'' :: seen)))
        (tablesOf (p ++ '\'' :: t)) := by
  have hverb : DefinitionVerb.ofStatement? (p ++ '\'' :: seen) = none :=
    Extraction.ofStatement?_quote h (by decide) seen
  rw [fingerprint,
    Classification.ofStatement_of_not_echoes hplain (ofRaw?_eq_none hplain hsession),
    Classification.definition?, herase, hverb]
  rfl

end

end Fingerprint

/-- Statements that differ in one literal have one fingerprint just where the same can be seen of
their literals: the same phrase of verbs, or the same data definition. -/
theorem fingerprint_eq_iff_of_literal (p s b₁ b₂ : Text)
    (hp : ∀ c ∈ p, c ≠ '\'' ∧ c ≠ '"' ∧ c ≠ '\x60' ∧ c ≠ '\\') (hp' : Comment.Unmarked p)
    (hs : ∀ c ∈ s, c ≠ '\'' ∧ c ≠ '"' ∧ c ≠ '\x60' ∧ c ≠ '\\') (hs' : Comment.Unmarked s)
    (hb₁ : ∀ c ∈ b₁, c ≠ '\'' ∧ c ≠ '"' ∧ c ≠ '\\')
    (hb₂ : ∀ c ∈ b₂, c ≠ '\'' ∧ c ≠ '"' ∧ c ≠ '\\')
    (h₁ : (Classification.ofStatement (p ++ '\'' :: b₁ ++ '\'' :: s)).echoes = false)
    (h₂ : (Classification.ofStatement (p ++ '\'' :: b₂ ++ '\'' :: s)).echoes = false) :
    fingerprint (p ++ '\'' :: b₁ ++ '\'' :: s) = fingerprint (p ++ '\'' :: b₂ ++ '\'' :: s) ↔
      Fingerprint.shown p b₁ s = Fingerprint.shown p b₂ s := by
  have hharmless : ∀ c ∈ p, Extraction.Harmless c :=
    fun c hc => ⟨(hp c hc).1, (hp c hc).2.1, (hp c hc).2.2.2⟩
  have hshape : ∀ b : Text, p ++ '\'' :: b ++ '\'' :: s = p ++ '\'' :: (b ++ '\'' :: s) := by
    simp
  have herase₁ := Fingerprint.erase_around hp hp' hs hs' hb₁
  have herase₂ := Fingerprint.erase_around hp hp' hs hs' hb₂
  unfold Fingerprint.shown
  cases hddl : DefinitionVerb.ofStatement? (p ++ ['\'']) with
  | some verb =>
      rw [hshape] at h₁ h₂ herase₁ herase₂ ⊢
      rw [hshape, Fingerprint.fingerprint_of_definition h₁ herase₁ hddl,
        Fingerprint.fingerprint_of_definition h₂ herase₂ hddl]
  | none =>
      have htables := Extraction.tablesOf_single hharmless hddl hb₁ hb₂ s
      cases hsession : Classification.opensSession (p ++ ['\'']) with
      | true =>
          rw [hshape] at h₁ h₂
          rw [hshape, hshape] at htables ⊢
          rw [Fingerprint.fingerprint_of_session h₁ hsession,
            Fingerprint.fingerprint_of_session h₂ hsession, htables]
          exact iff_of_true rfl rfl
      | false =>
          have hverbs₁ := Fingerprint.verbsIn_around hp hp' hs hs' hb₁
          have hverbs₂ := Fingerprint.verbsIn_around hp hp' hs hs' hb₂
          rw [herase₁] at hverbs₁
          rw [herase₂] at hverbs₂
          rw [hshape] at h₁ h₂ herase₁ herase₂
          rw [hshape, hshape] at htables ⊢
          rw [Fingerprint.fingerprint_of_verbs h₁ herase₁ hddl hsession,
            Fingerprint.fingerprint_of_verbs h₂ herase₂ hddl hsession, htables, hverbs₁, hverbs₂]
          have hfront := Classification.reads_verbsBehind (p ++ ['\''])
          exact Classification.compose_eq_iff ⟨hfront.1, hfront.2⟩
            (Classification.reads_foundIn 0 (List.cons_ne_nil '\'' []) _)
            (Classification.reads_foundIn 0 (List.cons_ne_nil '\'' []) _) _

/-- A verb in a literal behind a SELECT is not seen, unless it is UNION. -/
theorem fingerprint_eq_iff_of_literal_select :
    fingerprint ("select a from t where b = ".toList ++ '\'' :: "insert".toList
        ++ '\'' :: " or c".toList) =
      fingerprint ("select a from t where b = ".toList ++ '\'' :: "x -- y".toList
        ++ '\'' :: " or c".toList) ∧
    fingerprint ("select a from t where b = ".toList ++ '\'' :: "union".toList
        ++ '\'' :: " or c".toList) ≠
      fingerprint ("select a from t where b = ".toList ++ '\'' :: "x -- y".toList
        ++ '\'' :: " or c".toList) := by
  have hp : ∀ c ∈ "select a from t where b = ".toList,
      c ≠ '\'' ∧ c ≠ '"' ∧ c ≠ '\x60' ∧ c ≠ '\\' := List.all_iff_forall_prop.mp (by decide)
  have hp' : Comment.Unmarked "select a from t where b = ".toList := by decide +kernel
  have hs : ∀ c ∈ " or c".toList, c ≠ '\'' ∧ c ≠ '"' ∧ c ≠ '\x60' ∧ c ≠ '\\' :=
    List.all_iff_forall_prop.mp (by decide)
  have hs' : Comment.Unmarked " or c".toList := by decide +kernel
  have hinsert : ∀ c ∈ "insert".toList, c ≠ '\'' ∧ c ≠ '"' ∧ c ≠ '\\' :=
    List.all_iff_forall_prop.mp (by decide)
  have hunion : ∀ c ∈ "union".toList, c ≠ '\'' ∧ c ≠ '"' ∧ c ≠ '\\' :=
    List.all_iff_forall_prop.mp (by decide)
  have hmark : ∀ c ∈ "x -- y".toList, c ≠ '\'' ∧ c ≠ '"' ∧ c ≠ '\\' :=
    List.all_iff_forall_prop.mp (by decide)
  have hplain : (Classification.ofStatement ("select a from t where b = ".toList
      ++ '\'' :: "x -- y".toList ++ '\'' :: " or c".toList)).echoes = false := by
    decide +kernel
  constructor
  · have hiff := fingerprint_eq_iff_of_literal _ _ _ _ hp hp' hs hs' hinsert hmark
      (by decide +kernel) hplain
    exact hiff.mpr (by decide +kernel)
  · have hiff := fingerprint_eq_iff_of_literal _ _ _ _ hp hp' hs hs' hunion hmark
      (by decide +kernel) hplain
    exact mt hiff.mp (by decide +kernel)

/-- Not all statements that differ in one literal have one fingerprint. -/
theorem fingerprint_ne_of_literal_union :
    ¬ ∀ p s b₁ b₂ : Text,
      (∀ c ∈ p, c ≠ '\'' ∧ c ≠ '"' ∧ c ≠ '\x60' ∧ c ≠ '\\') → Comment.Unmarked p →
      (∀ c ∈ s, c ≠ '\'' ∧ c ≠ '"' ∧ c ≠ '\x60' ∧ c ≠ '\\') → Comment.Unmarked s →
      (∀ c ∈ b₁, c ≠ '\'' ∧ c ≠ '"' ∧ c ≠ '\\') → (∀ c ∈ b₂, c ≠ '\'' ∧ c ≠ '"' ∧ c ≠ '\\') →
      (Classification.ofStatement (p ++ '\'' :: b₁ ++ '\'' :: s)).echoes = false →
      (Classification.ofStatement (p ++ '\'' :: b₂ ++ '\'' :: s)).echoes = false →
        fingerprint (p ++ '\'' :: b₁ ++ '\'' :: s) =
          fingerprint (p ++ '\'' :: b₂ ++ '\'' :: s) := by
  intro h
  have hunion : fingerprint ("select ".toList ++ '\'' :: "union".toList ++ ['\'']) =
      fingerprint ("select ".toList ++ '\'' :: "a".toList ++ ['\'']) := by
    apply h "select ".toList [] "union".toList "a".toList
    · exact List.all_iff_forall_prop.mp (by decide)
    · decide +kernel
    · exact List.forall_mem_nil _
    · decide +kernel
    · exact List.all_iff_forall_prop.mp (by decide)
    · exact List.all_iff_forall_prop.mp (by decide)
    · decide +kernel
    · decide +kernel
  revert hunion
  decide +kernel

end QueryDigest
