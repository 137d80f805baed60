import Mathlib.Data.Bool.AllAny
import QueryDigest.Proofs.Pattern.Keywords
import QueryDigest.Proofs.Pattern.Outline
import QueryDigest.Proofs.Statement.DataDefinition
import QueryDigest.Proofs.Text.Lines
import QueryDigest.Statement.Fingerprint

/-!
The verbs of a statement. Each verb that is found reads as one of a few keywords, and some of these
count only at the start of the statement, so that a fingerprint made of verbs is a fingerprint of a
SHOW statement just where its first verb says so.
-/

namespace QueryDigest

open Unicode (foldLetter upper upperChar)

namespace Unicode

theorem map_foldLetter_upperChar {c : Char} (h : (foldLetter c).isUpper = true) :
    (upperChar c).map foldLetter = [foldLetter c] :=
  letter_all (P := fun c => (foldLetter c).isUpper = true →
    (upperChar c).map foldLetter = [foldLetter c]) (by decide) (by decide) (by decide) h h

theorem map_foldLetter_upper {w : Text} (h : (w.map foldLetter).all Char.isUpper = true) :
    (upper w).map foldLetter = w.map foldLetter := by
  induction w with
  | nil => rfl
  | cons c w ih =>
      rw [List.map_cons, List.all_cons, Bool.and_eq_true] at h
      rw [upper, List.flatMap_cons, List.map_append, map_foldLetter_upperChar h.1, List.map_cons]
      exact congrArg _ (ih h.2)

end Unicode

namespace Classification

open Pattern

/-! ### Verbs found -/

/-- The verbs that count only at the start of a statement. -/
def leadingVerbs : List Text :=
  ["SHOW", "FLUSH", "COMMIT", "ROLLBACK", "BEGIN", "SET", "START", "LOCK"].map (·.toList)

/-- The verbs that count anywhere in a statement. -/
def innerVerbs : List Text :=
  ["SELECT", "INSERT", "UPDATE", "DELETE", "REPLACE", "UNION"].map (·.toList)

/-- The alternatives of the verb pattern, each with whether it is bound to the start. -/
def choices : List (Bool × String) :=
  [(true, "SHOW"), (true, "FLUSH"), (true, "COMMIT"), (true, "ROLLBACK"), (true, "BEGIN"),
    (false, "SELECT"), (false, "INSERT"), (false, "UPDATE"), (false, "DELETE"),
    (false, "REPLACE"), (true, "SET"), (false, "UNION"), (true, "START"), (true, "LOCK")]

def choice : Bool × String → Pattern
  | (true, w) => textStart ++ keyword w.toList
  | (false, w) => keyword w.toList

theorem verb_eq : verb = wordEdge ++ anyOf (choices.map choice) ++ wordEdge :=
  rfl

theorem near_verb : verb.Near := by
  rw [verb_eq]
  refine ⟨⟨near_wordEdge, near_anyOf ?_⟩, near_wordEdge⟩
  intro p hp
  obtain ⟨⟨start, w⟩, _, rfl⟩ := List.mem_map.mp hp
  cases start with
  | false => exact near_keyword _
  | true => exact ⟨near_textStart, near_keyword _⟩

theorem run_choice_some {start : Bool} {w : String} {a b : Attempt} {onward : Onward}
    (h : (choice (start, w)).run a onward = some b) :
    (start = true → a.before = []) ∧ (keyword w.toList).run a onward = some b := by
  cases start with
  | false => exact ⟨(fun hfalse => nomatch hfalse), h⟩
  | true =>
      rw [choice, run_append, textStart, run] at h
      split at h
      · rename_i hbefore
        exact ⟨fun _ => List.isEmpty_iff.mp hbefore, h⟩
      · cases h

/-- What the pattern of verbs takes is a keyword, and as which ones it reads depends on its
place. -/
theorem run_verb_some {a b : Attempt} (h : verb.run a some = some b) :
    isWordAt a.before.head? ≠ isWordAt a.after.head? ∧ ∃ w rest, a.after = w ++ rest ∧
      (w.map foldLetter ∈ innerVerbs ∨ a.before = [] ∧ w.map foldLetter ∈ leadingVerbs) ∧
        b = a.take w rest ∧ isWordAt b.before.head? ≠ isWordAt b.after.head? := by
  have hkind : ∀ c ∈ choices, c.2.toList.map foldLetter ∈
      if c.1 then leadingVerbs else innerVerbs := by
    decide
  rw [verb_eq, run_append, run_append] at h
  obtain ⟨hfirst, hrun⟩ := run_wordEdge_some.mp h
  obtain ⟨p, hp, hrun⟩ := run_anyOf_eq_some hrun
  obtain ⟨⟨start, k⟩, hchoice, rfl⟩ := List.mem_map.mp hp
  obtain ⟨hstart, hrun⟩ := run_choice_some hrun
  obtain ⟨w, rest, hafter, hw, hrun⟩ := run_keyword_eq_some hrun
  obtain ⟨hlast, hb⟩ := run_wordEdge_some.mp hrun
  obtain rfl := Option.some.inj hb
  have hk := hkind _ hchoice
  rw [← hw] at hk
  refine ⟨hfirst, w, rest, hafter, ?_, rfl, hlast⟩
  cases start with
  | false => exact Or.inl hk
  | true => exact Or.inr ⟨hstart rfl, hk⟩

/-- A verb that is found reads as one of the keywords, and as which ones depends on its place. -/
theorem verb_found {before after : Text} {h : Hit}
    (hmatch : verb.matchAt? ⟨before, after⟩ = some h) :
    h.text.map foldLetter ∈ innerVerbs ∨
      before = [] ∧ h.text.map foldLetter ∈ leadingVerbs := by
  obtain ⟨a, hrun, rfl⟩ := matchAt?_eq_some hmatch
  obtain ⟨_, w, rest, hafter, hreads, rfl, _⟩ := run_verb_some hrun
  have htext : Hit.text ⟨⟨before, after⟩, 0 + w.length, []⟩ = w := by
    change after = w ++ rest at hafter
    simp [Hit.text, hafter]
  change (Hit.text ⟨⟨before, after⟩, 0 + w.length, []⟩).map foldLetter ∈ innerVerbs ∨
    before = [] ∧ (Hit.text ⟨⟨before, after⟩, 0 + w.length, []⟩).map foldLetter ∈ leadingVerbs
  rw [htext]
  exact hreads

def foundIn (parts : List Part) : List Text :=
  parts.filterMap (Sum.elim (fun _ => none) fun found => some (upper found.1))

/-- The verbs in a text that has another text in front of it. -/
def verbsBehind (before t : Text) : List Text :=
  foundIn (verb.outlineFrom 0 before t)

theorem verbsIn_eq (t : Text) : verbsIn t = withoutRepeats (verbsBehind [] t) := by
  rw [verbsIn, verbsBehind, foundIn, outlineFrom, hits, pieces, List.map_filterMap,
    List.filterMap_map]
  congr 2
  funext piece
  cases piece <;> rfl

theorem verbsBehind_append {stop : Char} (h : verb.avoids [stop] = true) (before u v : Text) :
    verbsBehind before (u ++ stop :: v) =
      verbsBehind before (u ++ [stop]) ++ verbsBehind [stop] v := by
  rw [verbsBehind, outlineFrom_append near_verb h List.mem_cons_self before (Nat.zero_le _),
    foundIn, List.filterMap_append]
  rfl

/-- A text in upper case that reads as one of some keywords. -/
def Reads (keywords : List Text) (t : Text) : Prop :=
  t.map foldLetter ∈ keywords

/-- A verb as it is found: in upper case, and one of those that the pattern of verbs knows. -/
def Verbal (x : Text) : Prop :=
  Reads innerVerbs x ∨ Reads leadingVerbs x

theorem reads_upper {keywords : List Text} (h : ∀ k ∈ keywords, k.all Char.isUpper = true)
    {w : Text} (hw : Reads keywords w) : Reads keywords (upper w) := by
  rw [Reads, Unicode.map_foldLetter_upper (h _ hw)]
  exact hw

theorem isUpper_innerVerbs : ∀ k ∈ innerVerbs, k.all Char.isUpper = true := by
  decide

theorem isUpper_leadingVerbs : ∀ k ∈ leadingVerbs, k.all Char.isUpper = true := by
  decide

theorem reads_foundIn (inside : Nat) {before : Text} (hbefore : before ≠ []) (t : Text) :
    ∀ x ∈ foundIn (verb.outlineFrom inside before t), Reads innerVerbs x := by
  induction t generalizing inside before with
  | nil => simp [foundIn]
  | cons c rest ih =>
      cases inside with
      | succ inside => exact ih inside (List.cons_ne_nil c before)
      | zero =>
          obtain hkept | ⟨h, d, text, hmatch, htext⟩ := kept_or_hit verb ⟨before, c :: rest⟩
          · rw [outlineFrom_kept hkept]
            exact ih 0 (List.cons_ne_nil c before)
          · rw [outlineFrom_hit hmatch htext]
            intro x hx
            obtain rfl | hx := List.mem_cons.mp hx
            · obtain hinner | ⟨hnil, _⟩ := verb_found hmatch
              · exact reads_upper isUpper_innerVerbs hinner
              · exact absurd hnil hbefore
            · exact ih _ (List.cons_ne_nil c before) x hx

/-- Of the verbs of a statement only the first can be one that counts at the start alone. -/
theorem reads_verbsBehind (t : Text) :
    (∀ x ∈ (verbsBehind [] t).head?, Verbal x) ∧
      ∀ x ∈ (verbsBehind [] t).tail, Reads innerVerbs x := by
  cases t with
  | nil => exact ⟨by simp [verbsBehind, foundIn], by simp [verbsBehind, foundIn]⟩
  | cons c rest =>
      obtain hkept | ⟨h, d, text, hmatch, htext⟩ := kept_or_hit verb ⟨[], c :: rest⟩
      · have hrest := reads_foundIn 0 (List.cons_ne_nil c []) rest
        have hverbs : verbsBehind [] (c :: rest) = foundIn (verb.outlineFrom 0 [c] rest) := by
          rw [verbsBehind, outlineFrom_kept hkept]
          rfl
        rw [hverbs]
        exact ⟨fun x hx => Or.inl (hrest x (List.mem_of_head? hx)),
          fun x hx => hrest x (List.mem_of_mem_tail hx)⟩
      · have hrest := reads_foundIn text.length (List.cons_ne_nil c []) rest
        have hverbs : verbsBehind [] (c :: rest) =
            upper h.text :: foundIn (verb.outlineFrom text.length [c] rest) := by
          rw [verbsBehind, outlineFrom_hit hmatch htext]
          rfl
        rw [hverbs]
        refine ⟨?_, hrest⟩
        intro x hx
        obtain rfl := Option.some.inj hx
        obtain hinner | ⟨_, hleading⟩ := verb_found hmatch
        · exact Or.inl (reads_upper isUpper_innerVerbs hinner)
        · exact Or.inr (reads_upper isUpper_leadingVerbs hleading)

/-! ### The rule that claims a statement -/

/-- A rule for shapes holds of a statement, which comes by the shape with what the rule keeps. -/
inductive Fits (t : Text) : Classification → Prop where
  | procedureCall {hit : Hit} (h : callOpening.find t = some hit) :
      Fits t (.procedureCall (hit.group 0))
  | databaseChoice (h : useOpening.occursIn t = true) : Fits t .databaseChoice
  | tableRelease (h : unlockOpening.occursIn t = true) : Fits t .tableRelease
  | distributedTransaction {hit : Hit} (h : transactionOpening.find t = some hit) :
      Fits t (.distributedTransaction (Unicode.upper (hit.group 0)))
  | bulkLoad (h : loadOpening.occursIn t = true) :
      Fits t (.bulkLoad (Identifier.unquoted ((LoadTarget.ofStatement? t).getD [])))
  | administration (h : administratorMark.isPrefixOf t = true) :
      Fits t (.administration
        (Unicode.upper ((exactly administratorMark).replaceAll (fun _ => "ADMIN".toList) t)))
  | showing (h : showOpening.occursIn (Comment.erase t) = true) :
      Fits t (.showing (showPhrase (Comment.erase t)))
  | definition {verb : DefinitionVerb} {plain : Text}
      (h : DefinitionVerb.ofStatement? (Comment.erase t) = some verb)
      (hplain : existenceClause.replaceAll (fun _ => [' ']) (Comment.erase t) = plain) :
      Fits t (.definition verb (ObjectKind.ofStatement? verb plain)
        (((namedObject.find plain).map (·.group 0)).getD []))
  | verbWords : Fits t (.verbWords (verbsIn (Comment.erase t)))

theorem fits_of_raw {t : Text} {c : Classification} (h : ofRaw? t = some c) : Fits t c := by
  obtain ⟨rule, hrule, hc⟩ := List.exists_of_findSome?_eq_some h
  simp only [List.mem_cons, List.not_mem_nil, or_false] at hrule
  obtain rfl | rfl | rfl | rfl | rfl | rfl := hrule
  · obtain ⟨hit, hfind, rfl⟩ := Option.map_eq_some_iff.mp hc
    exact .procedureCall hfind
  · obtain ⟨hoccurs, rfl⟩ := Option.ite_some_none_eq_some.mp hc
    exact .databaseChoice hoccurs
  · obtain ⟨hoccurs, rfl⟩ := Option.ite_some_none_eq_some.mp hc
    exact .tableRelease hoccurs
  · obtain ⟨hit, hfind, rfl⟩ := Option.map_eq_some_iff.mp hc
    exact .distributedTransaction hfind
  · obtain ⟨hoccurs, rfl⟩ := Option.ite_some_none_eq_some.mp hc
    exact .bulkLoad hoccurs
  · obtain ⟨hmark, rfl⟩ := Option.ite_some_none_eq_some.mp hc
    exact .administration hmark

theorem fits_of_bare {t : Text} {c : Classification} (h : ofBare? (Comment.erase t) = some c) :
    Fits t c := by
  obtain ⟨rule, hrule, hc⟩ := List.exists_of_findSome?_eq_some h
  simp only [List.mem_cons, List.not_mem_nil, or_false] at hrule
  obtain rfl | rfl := hrule
  · obtain ⟨hoccurs, rfl⟩ := Option.ite_some_none_eq_some.mp hc
    exact .showing hoccurs
  · cases hverb : DefinitionVerb.ofStatement? (Comment.erase t) with
    | none => simp [definition?, hverb] at hc
    | some verb =>
        have hfits := Fits.definition hverb rfl
        simp only [definition?, hverb, Option.some.injEq] at hc
        subst hc
        cases hname : namedObject.find
            (existenceClause.replaceAll (fun _ => [' ']) (Comment.erase t)) with
        | none | some hit =>
            rw [hname] at hfits
            exact hfits

theorem fits_ofStatement (t : Text) : Fits t (ofStatement t) := by
  unfold ofStatement
  cases hraw : ofRaw? t with
  | some c => exact fits_of_raw hraw
  | none =>
      cases hbare : ofBare? (Comment.erase t) with
      | some c => simpa only [hbare] using fits_of_bare hbare
      | none => simpa only [hbare] using Fits.verbWords

/-! ### The words of a statement -/

theorem ofStatement_of_unclaimed {t : Text} (hraw : ofRaw? t = none)
    (hbare : ofBare? (Comment.erase t) = none) :
    ofStatement t = .verbWords (verbsIn (Comment.erase t)) := by
  simp only [ofStatement, hraw, hbare]

theorem withoutRepeats_cons (x : Text) (v : List Text) :
    ∃ rest, withoutRepeats (x :: v) = x :: rest ∧ ∀ y ∈ rest, y ∈ v := by
  induction v generalizing x with
  | nil => exact ⟨[], rfl, by simp⟩
  | cons w v ih =>
      obtain ⟨rest, hrest, hsub⟩ := ih w
      rw [withoutRepeats]
      by_cases hx : x = w
      · rw [if_pos hx, hrest, hx]
        exact ⟨rest, rfl, fun y hy => List.mem_cons_of_mem w (hsub y hy)⟩
      · rw [if_neg hx, hrest]
        refine ⟨w :: rest, rfl, ?_⟩
        intro y hy
        obtain rfl | hy := List.mem_cons.mp hy
        · exact List.mem_cons_self
        · exact List.mem_cons_of_mem w (hsub y hy)

theorem settled_cons (x : Text) (v : List Text) :
    ∃ rest, settled (x :: v) = x :: rest ∧ ∀ y ∈ rest, y ∈ v := by
  by_cases hx : x = selectWord
  · have hdoubtful : doubtful (x :: v) = v := if_pos hx
    rw [settled, hdoubtful]
    cases v with
    | nil => exact ⟨[], rfl, by simp⟩
    | cons w v =>
        by_cases hunion : unionWord ∈ w :: v
        · refine ⟨[unionWord], ?_, ?_⟩
          · simp only [if_pos hunion, hx]
          · intro y hy
            rwa [List.mem_singleton.mp hy]
        · exact ⟨[], by simp only [if_neg hunion, hx], by simp⟩
  · have hdoubtful : doubtful (x :: v) = [] := if_neg hx
    rw [settled, hdoubtful]
    exact ⟨v, rfl, fun y hy => hy⟩

theorem mem_of_mem_withoutRepeats {x : Text} {v : List Text} (h : x ∈ withoutRepeats v) :
    x ∈ v := by
  cases v with
  | nil => exact h
  | cons y v =>
      obtain ⟨rest, hrest, hsub⟩ := withoutRepeats_cons y v
      rw [hrest] at h
      exact (List.mem_cons.mp h).elim (fun hx => hx ▸ List.mem_cons_self)
        fun hx => List.mem_cons_of_mem y (hsub x hx)

theorem mem_of_mem_settled {x : Text} {v : List Text} (h : x ∈ settled v) : x ∈ v := by
  cases v with
  | nil => exact h
  | cons y v =>
      obtain ⟨rest, hrest, hsub⟩ := settled_cons y v
      rw [hrest] at h
      exact (List.mem_cons.mp h).elim (fun hx => hx ▸ List.mem_cons_self)
        fun hx => List.mem_cons_of_mem y (hsub x hx)

theorem words_cons (x : Text) (v : List Text) :
    ∃ rest : List Text,
      (verbWords (withoutRepeats (x :: v))).words = x ++ rest.flatMap (' ' :: ·) ∧
        ∀ y ∈ rest, y ∈ v := by
  obtain ⟨v', hv', hsub⟩ := withoutRepeats_cons x v
  obtain ⟨rest, hrest, hsub'⟩ := settled_cons x v'
  refine ⟨rest, ?_, fun y hy => hsub y (hsub' y hy)⟩
  change Text.spaced (settled (withoutRepeats (x :: v))) = _
  rw [hv', hrest, Text.spaced_cons]

/-! ### Fingerprints of verbs -/

theorem not_mem_of_reads {keywords : List Text} {z : Char} (hz : foldLetter z = z)
    (h : ∀ k ∈ keywords, z ∉ k) {x : Text} (hx : Reads keywords x) : z ∉ x := by
  intro hmem
  have hmem' : foldLetter z ∈ x.map foldLetter := List.mem_map_of_mem hmem
  rw [hz] at hmem'
  exact h _ hx hmem'

theorem take_of_start {w x rest : Text} (h : w <+: x ++ rest) {n : Nat} (hw : n ≤ w.length)
    (hx : n ≤ (x.map foldLetter).length) :
    (x.map foldLetter).take n = (w.map foldLetter).take n := by
  obtain ⟨more, hmore⟩ := h
  rw [List.length_map] at hx
  have htake : (w ++ more).take n = (x ++ rest).take n := congrArg (List.take n) hmore
  rw [List.take_append_of_le_length hw, List.take_append_of_le_length hx] at htake
  rw [← List.map_take, ← List.map_take, htake]

theorem Verbal.mem {x : Text} (hx : Verbal x) :
    x.map foldLetter ∈ innerVerbs ++ leadingVerbs :=
  List.mem_append.mpr hx

theorem Verbal.starts_show {x rest : Text} (hx : Verbal x) (h : "SHOW".toList <+: x ++ rest) :
    "SHOW".toList <+: x ∧ x.map foldLetter = "SHOW".toList := by
  have hread : ∀ k ∈ innerVerbs ++ leadingVerbs, 2 ≤ k.length ∧
      (k.take 2 = ("SHOW".toList.map foldLetter).take 2 → k = "SHOW".toList) := by
    decide
  obtain ⟨hlength, hshow⟩ := hread _ hx.mem
  have hx' := hshow (take_of_start h (by decide) hlength)
  refine ⟨List.prefix_of_prefix_length_le h (List.prefix_append x rest) ?_, hx'⟩
  exact Nat.le_of_eq (by rw [← hx', List.length_map])

theorem Verbal.not_starts_load {x rest : Text} (hx : Verbal x) :
    ¬ "LOAD DATA".toList <+: x ++ rest := by
  intro h
  have hread : ∀ k ∈ innerVerbs ++ leadingVerbs, 3 ≤ k.length ∧
      k.take 3 ≠ ("LOAD DATA".toList.map foldLetter).take 3 := by
    decide
  obtain ⟨hlength, hload⟩ := hread _ hx.mem
  exact hload (take_of_start h (by decide) hlength)

theorem replaceAll_exactly {w t : Text} {z : Char} (hw : z ∈ w) (ht : z ∉ t) (r : Text) :
    (exactly w).replaceAll (fun _ => r) t = t := by
  have hnone : ∀ u₁ c u₂, t = u₁ ++ c :: u₂ →
      (exactly w).matchAt? ⟨u₁.reverse ++ [], c :: (u₂ ++ [])⟩ = none := by
    intro u₁ c u₂ h
    cases hmatch : (exactly w).matchAt? ⟨u₁.reverse ++ [], c :: (u₂ ++ [])⟩ with
    | none => rfl
    | some hit =>
        obtain ⟨a, hrun, _⟩ := matchAt?_eq_some hmatch
        have hstart : w <+: c :: (u₂ ++ []) := run_exactly_eq_some hrun
        rw [List.append_nil] at hstart
        exact absurd (h ▸ List.mem_append_right u₁ (hstart.subset hw)) ht
  have hkeep := outlineFrom_of_no_match [] [] hnone
  rw [List.append_nil, outlineFrom_nil, List.append_nil] at hkeep
  rw [replaceAll_const, hkeep, write_map_kept]

theorem unifySynonyms_eq {t : Text} (h : ∀ z ∈ ['M', 'Y', 'X'], z ∉ t) :
    Fingerprint.unifySynonyms t = t := by
  have hschema : (exactly "SCHEMA".toList).replaceAll (fun _ => "DATABASE".toList) t = t :=
    replaceAll_exactly (z := 'M') (by decide) (h _ (by decide)) _
  have hkeys : (exactly "KEYS".toList).replaceAll (fun _ => "INDEX".toList) t = t :=
    replaceAll_exactly (z := 'Y') (by decide) (h _ (by decide)) _
  have hindexes : (exactly "INDEXES".toList).replaceAll (fun _ => "INDEX".toList) t = t :=
    replaceAll_exactly (z := 'X') (by decide) (h _ (by decide)) _
  simp only [Fingerprint.unifySynonyms, Fingerprint.synonyms, List.foldl_cons, List.foldl_nil,
    hschema, hkeys, hindexes]

theorem not_mem_words {x : Text} {v : List Text} (hx : x.map foldLetter = "SHOW".toList)
    (hv : ∀ y ∈ v, Reads innerVerbs y) {z : Char} (hz : z ∈ ['M', 'Y', 'X']) :
    z ∉ (verbWords (withoutRepeats (x :: v))).words := by
  have hfold : ∀ z ∈ ['M', 'Y', 'X'], foldLetter z = z ∧ z ≠ ' ' ∧ z ∉ "SHOW".toList ∧
      ∀ k ∈ innerVerbs, z ∉ k :=
    List.all_iff_forall_prop.mp (by decide)
  obtain ⟨hself, hspace, hshow, hinner⟩ := hfold z hz
  obtain ⟨rest, hwords, hrest⟩ := words_cons x v
  rw [hwords, List.mem_append, List.mem_flatMap]
  rintro (hmem | ⟨y, hy, hmem⟩)
  · have hmem' : foldLetter z ∈ x.map foldLetter := List.mem_map_of_mem hmem
    rw [hself, hx] at hmem'
    exact hshow hmem'
  · obtain hmem | hmem := List.mem_cons.mp hmem
    · exact hspace hmem
    · exact not_mem_of_reads hself hinner (hv y (hrest y hy)) hmem

/-- The verbs are followed by the tables, unless the first one is the word SHOW. -/
theorem compose_verbWords {x : Text} {v : List Text} (hx : Verbal x)
    (hv : ∀ y ∈ v, Reads innerVerbs y) (found : List Text) :
    Fingerprint.compose (verbWords (withoutRepeats (x :: v))) found =
      (verbWords (withoutRepeats (x :: v))).words ++
        if "SHOW".toList.isPrefixOf x then []
        else (Fingerprint.tables found []).flatMap (' ' :: ·) := by
  obtain ⟨rest, hwords, _⟩ := words_cons x v
  have hload :
      "LOAD DATA".toList.isPrefixOf (verbWords (withoutRepeats (x :: v))).words = false := by
    rw [Bool.eq_false_iff, Ne, List.isPrefixOf_iff_prefix, hwords]
    exact hx.not_starts_load
  rw [Fingerprint.compose, hload]
  by_cases hshow : "SHOW".toList <+: x
  · have hwords' : "SHOW".toList <+: (verbWords (withoutRepeats (x :: v))).words :=
      hwords ▸ hshow.trans (List.prefix_append x _)
    have hself : "SHOW".toList <+: x ++ [] := by rwa [List.append_nil]
    have hread : x.map foldLetter = "SHOW".toList := (hx.starts_show hself).2
    rw [if_pos (List.isPrefixOf_iff_prefix.mpr hwords'),
      if_pos (List.isPrefixOf_iff_prefix.mpr hshow), List.append_nil,
      unifySynonyms_eq fun z hz => not_mem_words hread hv hz]
  · have hwords' : ¬ "SHOW".toList <+: (verbWords (withoutRepeats (x :: v))).words := by
      rw [hwords]
      exact fun h => hshow (hx.starts_show h).1
    rw [if_neg (mt List.isPrefixOf_iff_prefix.mp hwords'), if_neg (by decide),
      if_neg (mt List.isPrefixOf_iff_prefix.mp hshow), Text.spaced_cons]
    rfl

/-- Verbs of which only the first can be one that counts at the start alone. -/
structure VerbList (l : List Text) : Prop where
  head : ∀ x ∈ l.head?, Verbal x
  tail : ∀ x ∈ l.tail, Reads innerVerbs x

theorem VerbList.append {l v : List Text} (hl : VerbList l) (hv : ∀ x ∈ v, Reads innerVerbs x) :
    VerbList (l ++ v) := by
  cases l with
  | nil =>
      exact ⟨fun x hx => Or.inl (hv x (List.mem_of_head? hx)),
        fun x hx => hv x (List.mem_of_mem_tail hx)⟩
  | cons y l =>
      refine ⟨hl.head, ?_⟩
      intro x hx
      obtain hx | hx := List.mem_append.mp hx
      · exact hl.tail x hx
      · exact hv x hx

/-- What follows the verbs in a fingerprint. -/
def tablesBehind (l found : List Text) : Text :=
  if l.head?.any "SHOW".toList.isPrefixOf then []
  else (Fingerprint.tables found []).flatMap (' ' :: ·)

theorem VerbList.compose {l : List Text} (hl : VerbList l) (found : List Text) :
    Fingerprint.compose (verbWords (withoutRepeats l)) found =
      (verbWords (withoutRepeats l)).words ++ tablesBehind l found := by
  cases l with
  | nil => exact Text.spaced_cons [] (Fingerprint.tables found [])
  | cons x v => exact compose_verbWords (hl.head x rfl) hl.tail found

theorem not_show_of_inner {x : Text} (hx : Reads innerVerbs x) :
    "SHOW".toList.isPrefixOf x = false := by
  rw [Bool.eq_false_iff, Ne, List.isPrefixOf_iff_prefix]
  intro hshow
  have hself : "SHOW".toList <+: x ++ [] := by rwa [List.append_nil]
  have hread : x.map foldLetter = "SHOW".toList :=
    (Verbal.starts_show (Or.inl hx) hself).2
  rw [Reads, hread] at hx
  revert hx
  decide

theorem tablesBehind_inner {v : List Text} (hv : ∀ x ∈ v, Reads innerVerbs x)
    (found : List Text) :
    tablesBehind v found = (Fingerprint.tables found []).flatMap (' ' :: ·) := by
  cases v with
  | nil => rfl
  | cons x v =>
      have hx : (x :: v).head?.any "SHOW".toList.isPrefixOf = false :=
        not_show_of_inner (hv x List.mem_cons_self)
      rw [tablesBehind, hx]
      rfl

theorem tablesBehind_append (l : List Text) {v v' : List Text}
    (hv : ∀ x ∈ v, Reads innerVerbs x) (hv' : ∀ x ∈ v', Reads innerVerbs x)
    (found : List Text) : tablesBehind (l ++ v) found = tablesBehind (l ++ v') found := by
  cases l with
  | nil =>
      rw [List.nil_append, List.nil_append, tablesBehind_inner hv, tablesBehind_inner hv']
  | cons x l => rfl

/-- Two lists of verbs with the same tables make one fingerprint just where they make one phrase. -/
theorem compose_eq_iff {l v v' : List Text} (hl : VerbList l) (hv : ∀ x ∈ v, Reads innerVerbs x)
    (hv' : ∀ x ∈ v', Reads innerVerbs x) (found : List Text) :
    Fingerprint.compose (verbWords (withoutRepeats (l ++ v))) found =
        Fingerprint.compose (verbWords (withoutRepeats (l ++ v'))) found ↔
      (verbWords (withoutRepeats (l ++ v))).words =
        (verbWords (withoutRepeats (l ++ v'))).words := by
  rw [(hl.append hv).compose, (hl.append hv').compose, tablesBehind_append l hv hv']
  exact List.append_left_inj _

end Classification
end QueryDigest
