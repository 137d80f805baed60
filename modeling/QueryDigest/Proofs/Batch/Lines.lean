import QueryDigest.Proofs.Batch
import QueryDigest.Proofs.Log.Reading
import QueryDigest.Proofs.Statement.OneLine
import QueryDigest.Proofs.Text.Utf8

/-!
Lines of a text report against the statements of a log. A statement stands on one line of the log,
and what is shown of it on one line of the report, so the lines of both go side by side.
-/

namespace QueryDigest.Batch

open Text (OneLine)

variable {s : Settings}

theorem check_of_run {clock : Nat → Nat} {writer : Writer} {items : List Log.Item} {count : Nat}
    (h : (run s clock writer items).result = .ok count) : s.check = .ok () := by
  cases hcheck : s.check with
  | ok => rfl
  | error fault =>
      rw [run, hcheck] at h
      cases h

theorem room_of_run {clock : Nat → Nat} {writer : Writer} {items : List Log.Item} {count : Nat}
    (h : (run s clock writer items).result = .ok count) : s.batchSize ≤ largest := by
  refine Nat.le_of_not_lt fun hroom => ?_
  rw [run_of_no_room (check_of_run h) hroom] at h
  cases h

/-- A run that succeeds has written the whole report. -/
theorem text_of_run {clock : Nat → Nat} {limit : Option Nat} {statements : List Text} {count : Nat}
    (h : (run s clock (.start s.format s.mode (.empty limit)) (statements.map .statement)).result =
      .ok count) :
    (run s clock (.start s.format s.mode (.empty limit))
      (statements.map .statement)).writer.sink.text =
        Report.ofStatements s.format s.mode statements := by
  obtain ⟨hsink, hresult⟩ := run_statements (check_of_run h) (room_of_run h) limit clock statements
  rw [hresult] at h
  split at h
  · rename_i hfits
    rw [hsink, Sink.text, Sink.taken_after_of_fits hfits, Utf8.decode_encode]
  · cases h

theorem ofStatements_text {mode : Mode} (hm : mode ≠ .summary) (statements : List Text) :
    Report.ofStatements .text mode statements =
      (statements.map fun q => Report.recordLine mode (Report.recordOf q)).flatMap Text.line := by
  cases mode with
  | summary => exact absurd rfl hm
  | fingerprint | tables =>
      simp only [Report.ofStatements, Report.ofRecords, Report.ofRows, List.map_map]
      rfl

theorem oneLine_recordLine {q : Text} (h : OneLine q) (mode : Mode) :
    OneLine (Report.recordLine mode (Report.recordOf q)) := by
  cases mode with
  | fingerprint | summary => exact oneLine_fingerprint h
  | tables => exact .join (by decide) fun _ => oneLine_of_mem_tablesOf h

/-- The lines of a report in text are what is shown of the statements, one of each. -/
theorem splitOn_text_of_run {clock : Nat → Nat} {limit : Option Nat} {statements : List Text}
    {count : Nat} (hstatements : ∀ q ∈ statements, OneLine q) (hf : s.format = .text)
    (hm : s.mode ≠ .summary)
    (h : (run s clock (.start s.format s.mode (.empty limit)) (statements.map .statement)).result =
      .ok count) :
    (run s clock (.start s.format s.mode (.empty limit))
      (statements.map .statement)).writer.sink.text.splitOn '\n' =
        (statements.map fun q => Report.recordLine s.mode (Report.recordOf q)) ++ [[]] := by
  rw [text_of_run h, hf, ofStatements_text hm]
  apply Text.splitOn_lines
  intro line hline
  obtain ⟨q, hq, rfl⟩ := List.mem_map.mp hline
  exact oneLine_recordLine (hstatements q hq) s.mode

/-- A line of a report in text belongs to the statement in the same place. No statement of a log has
a line feed in it, and nothing that is found in such a statement has one. -/
theorem text_report_lines :
    (∀ q : Text, OneLine q →
      OneLine (Comment.erase q) ∧ OneLine (Classification.ofStatement q).words ∧
        OneLine (Classification.ofStatement q).object ∧ OneLine (fingerprint q) ∧
        ∀ table ∈ tablesOf q, OneLine table) ∧
    (∀ (chunks : List Log.Chunk) (q : Text), .statement q ∈ Log.items chunks → OneLine q) ∧
    ∀ chunks : List (List UInt8), ∃ statements : List Text,
      Log.items (chunks.map .bytes) = statements.map .statement ∧
        ∀ (s : Settings) (clock : Nat → Nat) (limit : Option Nat) (count : Nat),
          let outcome := run s clock (.start s.format s.mode (.empty limit))
            (Log.items (chunks.map .bytes))
          s.format = .text → outcome.result = .ok count →
            (s.mode = .fingerprint →
              outcome.writer.sink.text.splitOn '\n' = statements.map fingerprint ++ [[]]) ∧
            (s.mode = .tables →
              outcome.writer.sink.text.splitOn '\n' =
                (statements.map fun q => Text.join [','] (tablesOf q)) ++ [[]]) := by
  refine ⟨fun q hq => ?_, fun chunks q => Log.oneLine_of_mem_items, fun chunks => ?_⟩
  · have hshape := Classification.inLine_ofStatement hq
    exact ⟨Comment.oneLine_erase hq, Classification.oneLine_words hshape,
      Classification.oneLine_object hshape, oneLine_fingerprint hq,
      fun _ => oneLine_of_mem_tablesOf hq⟩
  · obtain ⟨statements, hitems⟩ := Log.items_map_bytes chunks
    have hstatements : ∀ q ∈ statements, OneLine q := by
      intro q hq
      have hmem : .statement q ∈ Log.items (chunks.map .bytes) :=
        hitems ▸ List.mem_map_of_mem hq
      exact Log.oneLine_of_mem_items hmem
    refine ⟨statements, hitems, ?_⟩
    intro s clock limit count outcome hf hresult
    have hlines (hm : s.mode ≠ .summary) : outcome.writer.sink.text.splitOn '\n' =
        (statements.map fun q => Report.recordLine s.mode (Report.recordOf q)) ++ [[]] := by
      simp only [outcome, hitems] at hresult ⊢
      exact splitOn_text_of_run hstatements hf hm hresult
    constructor
    · intro hm
      rw [hlines (by simp [hm]), hm]
      rfl
    · intro hm
      rw [hlines (by simp [hm]), hm]
      rfl

/-- A note between two statements, the second of which names no table on a line left open. -/
theorem text_report_lines_open :
    let s : Settings := { threads := 2, batchSize := 1, mode := .tables }
    let log := Utf8.encode "select 1 from \x60a#b\x60, c;\n# note\ncommit".toList
    let outcome := run s id (.start s.format s.mode (.empty none)) (Log.items [.bytes log])
    (.statement "commit".toList ∈ Log.items [.bytes log] ∧ OneLine "commit".toList ∧
      OneLine (fingerprint "commit".toList)) ∧
    s.format = .text ∧ outcome.result = .ok 2 ∧ s.mode = .tables ∧
      outcome.writer.sink.text.splitOn '\n' = ["\x60a#b\x60,c".toList, [], []] := by
  intro s log outcome
  have hread : Log.items [.bytes log] =
      ["select 1 from \x60a#b\x60, c".toList, "commit".toList].map .statement := by
    decide +kernel
  have hresult : outcome.result = .ok 2 := by
    simp only [outcome, hread]
    exact (run_statements (s := s) rfl (by decide) none id _).2.trans
      (if_pos (Sink.fits_none _))
  have hcommit : .statement "commit".toList ∈ Log.items [.bytes log] := by simp [hread]
  obtain ⟨hfound, hitem, hrun⟩ := text_report_lines
  have hline := hitem _ _ hcommit
  obtain ⟨statements, hitems, hlines⟩ := hrun [log]
  have hstatements : statements = ["select 1 from \x60a#b\x60, c".toList, "commit".toList] :=
    (List.map_inj_right fun _ _ => Log.Item.statement.inj).mp (hitems.symm.trans hread)
  have hsplit := (hlines s id none 2 rfl hresult).2 rfl
  refine ⟨⟨hcommit, hline, (hfound _ hline).2.2.2.1⟩, rfl, hresult, rfl, hsplit.trans ?_⟩
  rw [hstatements]
  decide +kernel

end QueryDigest.Batch
