import Mathlib.Data.List.Chain
import QueryDigest.Proofs.Pattern.Runs
import QueryDigest.Proofs.Statement.DataDefinition
import QueryDigest.Statement.Extraction

/-!
Definitions by a query. Tables are looked for in a statement and in a data definition by two
functions that call each other, with no bound on the calls. The query that a definition passes on
need not be much shorter, but it starts with the word SELECT, so it is no definition itself and
nothing is passed on from it, whatever definitions stand further on in it.
-/

namespace QueryDigest.Extraction

open Pattern
open Unicode (foldLetter)

/-! ### The query behind a definition -/

/-- A text starts with the word SELECT, in any case. -/
def OpensQuery (t : Text) : Prop :=
  ∃ w rest, Text.StandsIn t [] w rest ∧ w.map foldLetter = "SELECT".toList

/-- A query found at a place is all the text behind it. -/
theorem group_selectTail {before after : Text} {h : Hit}
    (hmatch : selectTail.matchAt? ⟨before, after⟩ = some h) :
    h.group 0 = after ∧ OpensQuery after := by
  obtain ⟨a, hrun, rfl⟩ := matchAt?_eq_some hmatch
  rw [selectTail, run_append] at hrun
  obtain ⟨_, hrun⟩ := run_wordEdge_some.mp hrun
  rw [run_group, run_append, run_append] at hrun
  obtain ⟨w, rest, hafter, hw, hrun⟩ := run_keyword_eq_some hrun
  obtain ⟨hedge, hrun⟩ := run_wordEdge_some.mp hrun
  obtain rfl : after = w ++ rest := hafter
  obtain ⟨hne, hword⟩ := Text.word_of_fold hw (by decide) (by decide)
  constructor
  · have hall : rest.takeWhile anyChar = rest :=
      List.takeWhile_eq_self_iff.mpr fun _ _ => rfl
    rw [run_someOf_eq, Attempt.take_after, hall, Option.ite_none_left_eq_some] at hrun
    obtain ⟨_, hrun⟩ := hrun
    cases hrun
    exact List.take_of_length_le (by simp [Attempt.start])
  · refine ⟨w, rest, ⟨rfl, hne, hword, rfl, ?_⟩, hw⟩
    rw [Attempt.take_before, Attempt.take_after, Text.isWordAt_reverse hne hword] at hedge
    exact Bool.eq_false_iff.mpr hedge.symm

theorem definingQuery?_eq_some {t query : Text} (h : definingQuery? t = some query) :
    query <:+ t ∧ OpensQuery query := by
  rw [definingQuery?, Option.ite_none_right_eq_some] at h
  obtain ⟨hit, hfind, rfl⟩ := Option.map_eq_some_iff.mp h.2
  obtain ⟨u, v, rfl, hmatch⟩ := findBetween_some hfind
  obtain ⟨hgroup, hopens⟩ := group_selectTail hmatch
  rw [hgroup]
  exact ⟨List.suffix_append u v, hopens⟩

/-- No statement starts with SELECT and with the verb of a definition. -/
theorem OpensQuery.ofStatement?_eq_none {t : Text} (h : OpensQuery t) :
    DefinitionVerb.ofStatement? t = none := by
  obtain ⟨w, rest, hstands, hw⟩ := h
  rw [hstands.split, List.nil_append]
  refine DefinitionVerb.ofStatement?_of_word hstands.nonempty hstands.word hstands.edge_after ?_
  intro verb
  rw [hw]
  cases verb <;> decide

/-- The query that defines a table is shorter than the definition, whose verb is left of it. -/
theorem length_definingQuery? {verb : DefinitionVerb} {t query : Text}
    (hverb : DefinitionVerb.ofStatement? t = some verb)
    (hquery : definingQuery? (existenceClause.removeAll t) = some query) :
    query.length < t.length := by
  obtain ⟨hsuffix, hopens⟩ := definingQuery?_eq_some hquery
  have hwithin : query.Sublist t := hsuffix.sublist.trans (removeAll_sublist existenceClause t)
  -- A query of the same length is the statement itself, which starts with a verb.
  refine Nat.lt_of_le_of_ne hwithin.length_le fun hlength => ?_
  obtain rfl := hwithin.eq_of_length hlength
  rw [hopens.ofStatement?_eq_none] at hverb
  cases hverb

/-! ### Two functions that call each other -/

/-- How tables are found in a data definition. -/
def ofDefinition (verb : DefinitionVerb) (t : Text) : Extraction :=
  if (databaseBehind verb).occursIn (existenceClause.removeAll t) then .aboutDatabase verb
  else
    match definingQuery? (existenceClause.removeAll t) with
    | some query => .definedByQuery verb query (ofStatement query)
    | none =>
      .definedObject verb ((tableName.find (existenceClause.removeAll t)).map (·.group 0))

theorem ofStatement_of_none {t : Text} (h : DefinitionVerb.ofStatement? t = none) :
    ofStatement t = ofClauses t := by
  rw [ofStatement, h]

theorem ofStatement_of_verb {verb : DefinitionVerb} {t : Text}
    (h : DefinitionVerb.ofStatement? t = some verb) : ofStatement t = ofDefinition verb t := by
  rw [ofStatement, h]
  simp only [ofDefinition]
  cases hquery : definingQuery? (existenceClause.removeAll t) with
  | none => rfl
  | some query => simp only [if_pos (length_definingQuery? h hquery)]

/-- A call of one of the two functions, with what it is given. -/
inductive Call where
  | statement (t : Text)
  | definition (verb : DefinitionVerb) (t : Text)

def Call.result : Call → Extraction
  | .statement t => ofStatement t
  | .definition verb t => ofDefinition verb t

/-- One call makes another one. -/
inductive Makes : Call → Call → Prop where
  | definition {verb : DefinitionVerb} {t : Text}
      (hverb : DefinitionVerb.ofStatement? t = some verb) :
      Makes (.statement t) (.definition verb t)
  | query {verb : DefinitionVerb} {t query : Text}
      (hobject : (databaseBehind verb).occursIn (existenceClause.removeAll t) = false)
      (hquery : definingQuery? (existenceClause.removeAll t) = some query) :
      Makes (.definition verb t) (.statement query)

/-- A call returns, behind the return of the call that it makes. -/
inductive Returns : Call → Extraction → Prop where
  | clauses {t : Text} (hverb : DefinitionVerb.ofStatement? t = none) :
      Returns (.statement t) (ofClauses t)
  | definition {verb : DefinitionVerb} {t : Text} {found : Extraction}
      (hcall : Makes (.statement t) (.definition verb t))
      (hfound : Returns (.definition verb t) found) : Returns (.statement t) found
  | aboutDatabase {verb : DefinitionVerb} {t : Text}
      (hobject : (databaseBehind verb).occursIn (existenceClause.removeAll t) = true) :
      Returns (.definition verb t) (.aboutDatabase verb)
  | query {verb : DefinitionVerb} {t query : Text} {inner : Extraction}
      (hcall : Makes (.definition verb t) (.statement query))
      (hinner : Returns (.statement query) inner) :
      Returns (.definition verb t) (.definedByQuery verb query inner)
  | object {verb : DefinitionVerb} {t : Text}
      (hobject : (databaseBehind verb).occursIn (existenceClause.removeAll t) = false)
      (hquery : definingQuery? (existenceClause.removeAll t) = none) :
      Returns (.definition verb t)
        (.definedObject verb ((tableName.find (existenceClause.removeAll t)).map (·.group 0)))

/-! ### How deep the calls go -/

/-- How many calls follow a call at most, each made by the one before. -/
def Call.depth : Call → Nat
  | .statement t => if DefinitionVerb.ofStatement? t = none then 0 else 2
  | .definition _ _ => 1

theorem Call.depth_statement_le (t : Text) : (Call.statement t).depth ≤ 2 := by
  rw [depth]
  split <;> decide

theorem opensQuery_of_makes {verb : DefinitionVerb} {t query : Text}
    (h : Makes (.definition verb t) (.statement query)) : OpensQuery query := by
  cases h with
  | query _ hquery => exact (definingQuery?_eq_some hquery).2

theorem OpensQuery.depth_eq {t : Text} (h : OpensQuery t) : (Call.statement t).depth = 0 :=
  if_pos h.ofStatement?_eq_none

theorem Makes.depth_lt {call next : Call} (h : Makes call next) : next.depth < call.depth := by
  cases h with
  | definition hverb =>
      rw [Call.depth, Call.depth, if_neg (by simp [hverb])]
      exact Nat.one_lt_two
  | query hobject hquery =>
      rw [(opensQuery_of_makes (.query hobject hquery)).depth_eq]
      exact Nat.one_pos

theorem wellFounded_makes : WellFounded fun next call => Makes call next :=
  Subrelation.wf Makes.depth_lt (measure Call.depth).wf

theorem length_le_depth {call : Call} {calls : List Call}
    (h : List.IsChain Makes (call :: calls)) : calls.length ≤ call.depth := by
  induction calls generalizing call with
  | nil => exact Nat.zero_le _
  | cons next calls ih =>
      obtain ⟨hmakes, hrest⟩ := List.isChain_cons_cons.mp h
      exact Nat.succ_le_of_lt (Nat.lt_of_le_of_lt (ih hrest) hmakes.depth_lt)

/-! ### What the calls return -/

theorem returns_result (call : Call) : Returns call call.result := by
  -- The induction is on the calls that are made, not on the lengths of their texts.
  induction call using wellFounded_makes.induction with
  | _ call ih =>
      cases call with
      | statement t =>
          rw [Call.result]
          cases hverb : DefinitionVerb.ofStatement? t with
          | none =>
              rw [ofStatement_of_none hverb]
              exact .clauses hverb
          | some verb =>
              rw [ofStatement_of_verb hverb]
              exact .definition (.definition hverb) (ih _ (.definition hverb))
      | definition verb t =>
          rw [Call.result, ofDefinition]
          split
          · rename_i hobject
            exact .aboutDatabase hobject
          · rename_i hobject
            rw [Bool.not_eq_true] at hobject
            split
            · rename_i query hquery
              exact .query (.query hobject hquery) (ih _ (.query hobject hquery))
            · rename_i hquery
              exact .object hobject hquery

theorem Returns.eq_result {call : Call} {found : Extraction} (h : Returns call found) :
    found = call.result := by
  induction h with
  | clauses hverb => exact (ofStatement_of_none hverb).symm
  | definition hcall _ ih =>
      cases hcall with
      | definition hverb => exact ih.trans (ofStatement_of_verb hverb).symm
  | aboutDatabase hobject => rw [Call.result, ofDefinition, if_pos hobject]
  | query hcall _ ih =>
      cases hcall with
      | query hobject hquery =>
          rw [Call.result, ofDefinition, hobject, if_neg Bool.false_ne_true, hquery, ih,
            Call.result]
  | object hobject hquery =>
      rw [Call.result, ofDefinition, hobject, if_neg Bool.false_ne_true, hquery]

/-- The calls for a statement end, and they return what is found in it. A query that they pass on
starts with the word SELECT, so it is no definition and the call for it makes no other one. At most
two calls follow the first, one inside the other: for its definition and for the query of that. -/
theorem calls_end (t : Text) :
    Acc (fun next call => Makes call next) (.statement t) ∧
      (∀ found, Returns (.statement t) found ↔ found = ofStatement t) ∧
      (∀ verb query, Makes (.definition verb t) (.statement query) →
        OpensQuery query ∧ DefinitionVerb.ofStatement? query = none ∧
          ∀ next, ¬ Makes (.statement query) next) ∧
      ∀ calls, List.IsChain Makes (.statement t :: calls) → calls.length ≤ 2 := by
  refine ⟨wellFounded_makes.apply _, fun found => ⟨Returns.eq_result, ?_⟩, ?_, ?_⟩
  · rintro rfl
    exact returns_result (.statement t)
  · intro verb query hcall
    have hopens := opensQuery_of_makes hcall
    refine ⟨hopens, hopens.ofStatement?_eq_none, fun next hnext => ?_⟩
    have hlast := hopens.depth_eq ▸ hnext.depth_lt
    exact Nat.not_lt_zero _ hlast
  · intro calls hcalls
    exact (length_le_depth hcalls).trans (Call.depth_statement_le t)

/-- A definition by a query that is spelled with a long s and in which another one stands. -/
theorem calls_end_nested :
    List.IsChain Makes [.statement "CREATE TABLE a \u017felect 1 CREATE TABLE b SELECT 2".toList,
        .definition .create "CREATE TABLE a \u017felect 1 CREATE TABLE b SELECT 2".toList,
        .statement "\u017felect 1 CREATE TABLE b SELECT 2".toList] ∧
      OpensQuery "\u017felect 1 CREATE TABLE b SELECT 2".toList ∧
      DefinitionVerb.ofStatement? "\u017felect 1 CREATE TABLE b SELECT 2".toList = none ∧
      ∀ next, ¬ Makes (.statement "\u017felect 1 CREATE TABLE b SELECT 2".toList) next := by
  have hverb : Makes (.statement "CREATE TABLE a \u017felect 1 CREATE TABLE b SELECT 2".toList)
      (.definition .create "CREATE TABLE a \u017felect 1 CREATE TABLE b SELECT 2".toList) :=
    .definition (by decide +kernel)
  have hquery : Makes
      (.definition .create "CREATE TABLE a \u017felect 1 CREATE TABLE b SELECT 2".toList)
      (.statement "\u017felect 1 CREATE TABLE b SELECT 2".toList) :=
    .query (by decide +kernel) (by decide +kernel)
  have hcalls := List.isChain_cons_cons.mpr ⟨hverb, List.isChain_pair.mpr hquery⟩
  obtain ⟨_, _, hpassed, _⟩ :=
    calls_end "CREATE TABLE a \u017felect 1 CREATE TABLE b SELECT 2".toList
  exact ⟨hcalls, hpassed _ _ hquery⟩

end QueryDigest.Extraction
