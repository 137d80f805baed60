import QueryDigest.Proofs.Statement.MaskedNames

/-!
The tables behind the words of a fingerprint. Repeats are dropped in front of masking and behind it,
where masked names and a named object meet; what is left is each entry once, in the order in which
the entries first occur.
-/

namespace QueryDigest

namespace Fingerprint

/-- The entries of a fingerprint for the tables found and a named object, which may be empty. -/
structure Lists (found : List Text) (object : Text) (entries : List Text) : Prop where
  nodup : entries.Nodup
  mem_iff : ∀ entry, entry ∈ entries ↔
    entry ∈ found.map maskedName ∨ entry = object ∧ object ≠ []
  /-- Masked names stand in the order in which they first occur. -/
  order : ∀ x ∈ found.map maskedName, ∀ y ∈ found.map maskedName,
    entries.idxOf x < entries.idxOf y ↔
      (found.map maskedName).idxOf x < (found.map maskedName).idxOf y
  /-- The object comes last, unless it reads like one of the masked names. -/
  last : object ≠ [] → object ∉ found.map maskedName → entries.getLast? = some object
  masked : ∀ entry ∈ found.map maskedName, ∀ c ∈ entry,
    c.isDigit = false ∧ c ≠ Identifier.backquote

theorem not_mem_maskedName {name : Text} {c : Char} (hc : c ∈ maskedName name) :
    c.isDigit = false ∧ c ≠ Identifier.backquote := by
  rw [maskedName, maskNumbers_eq_markRuns] at hc
  refine ⟨Text.not_isDigit_of_mem_markRuns hc, ?_⟩
  obtain hc | rfl := Text.mem_markRuns hc
  · exact bne_iff_ne.mp (List.mem_filter.mp hc).2
  · decide

theorem lists_tables (found : List Text) (object : Text) :
    Lists found object (tables found object) where
  nodup := List.nodup_eraseDups _
  mem_iff := by
    intro entry
    rw [tables, List.mem_eraseDups, List.mem_append]
    cases object <;> simp
  order := by
    intro x hx y hy
    rw [tables, List.idxOf_eraseDups_lt_iff (List.mem_append_left _ hx)
      (List.mem_append_left _ hy), List.idxOf_append_of_mem hx, List.idxOf_append_of_mem hy]
  last := by
    intro hobject hnew
    rw [tables, if_neg (by simpa using hobject), List.eraseDups_concat, if_neg hnew,
      List.getLast?_concat]
  masked := by
    intro entry hentry c hc
    obtain ⟨name, _, rfl⟩ := List.mem_map.mp hentry
    exact not_mem_maskedName hc

end Fingerprint

/-- A fingerprint that shows tables is the words of the statement and its entries, each entry once,
and it does not matter that the tables found have no repeats. -/
theorem fingerprint_eq_spaced_tables (q : Text)
    (hshow : ¬ "SHOW".toList <+: (Classification.ofStatement q).words)
    (hload : ¬ "LOAD DATA".toList <+: (Classification.ofStatement q).words) :
    ∃ entries, fingerprint q = Text.spaced ((Classification.ofStatement q).words :: entries) ∧
      Fingerprint.Lists (tablesOf q) (Classification.ofStatement q).object entries ∧
      entries = Fingerprint.tables (Extraction.ofStatement q).tables
        (Classification.ofStatement q).object := by
  refine ⟨_, ?_, Fingerprint.lists_tables _ _, ?_⟩
  · rw [fingerprint, Fingerprint.compose, if_neg (by rwa [List.isPrefixOf_iff_prefix]),
      if_neg (by rwa [List.isPrefixOf_iff_prefix])]
  · exact List.eraseDups_append_eraseDups_map _ _ _

/-- Two tables whose masked names are the same, and a named object that is one of the tables. -/
theorem fingerprint_eq_spaced_tables_repeated :
    ¬ "SHOW".toList <+: (Classification.ofStatement
        "create table u select * from t_1, `t_22` join u".toList).words ∧
      ¬ "LOAD DATA".toList <+: (Classification.ofStatement
        "create table u select * from t_1, `t_22` join u".toList).words ∧
      tablesOf "create table u select * from t_1, `t_22` join u".toList =
        ["t_1".toList, "`t_22`".toList, "u".toList] ∧
      ∃ entries, entries = ["t_?".toList, "u".toList] ∧
        Fingerprint.Lists ["t_1".toList, "`t_22`".toList, "u".toList] "u".toList entries ∧
        fingerprint "create table u select * from t_1, `t_22` join u".toList =
          Text.spaced ((Classification.ofStatement
            "create table u select * from t_1, `t_22` join u".toList).words :: entries) := by
  have hwords : (Classification.ofStatement
      "create table u select * from t_1, `t_22` join u".toList).words = "CREATE TABLE".toList := by
    decide +kernel
  have hshow : ¬ "SHOW".toList <+: (Classification.ofStatement
      "create table u select * from t_1, `t_22` join u".toList).words := by
    rw [hwords]
    decide
  have hload : ¬ "LOAD DATA".toList <+: (Classification.ofStatement
      "create table u select * from t_1, `t_22` join u".toList).words := by
    rw [hwords]
    decide
  have htables : tablesOf "create table u select * from t_1, `t_22` join u".toList =
      ["t_1".toList, "`t_22`".toList, "u".toList] := by
    decide +kernel
  have hobject : (Classification.ofStatement
      "create table u select * from t_1, `t_22` join u".toList).object = "u".toList := by
    decide +kernel
  obtain ⟨entries, hfingerprint, hlists, hentries⟩ := fingerprint_eq_spaced_tables _ hshow hload
  rw [htables, hobject] at hlists
  refine ⟨hshow, hload, htables, entries, ?_, hlists, hfingerprint⟩
  rw [hentries]
  decide +kernel

end QueryDigest
