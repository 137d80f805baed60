import QueryDigest.Proofs.Batch

/-!
Runs whose reading fails, into a sink without a limit. Between two items the complete batches of
what has been read are through, and the rest is pending. A failure drops what is pending and leaves
what has been written.
-/

namespace QueryDigest.Batch

open Writer (rowsText)

/-- The number of statements in the complete batches of the statements read. -/
def complete (s : Settings) (read : List Text) : Nat :=
  read.length / s.batchSize * s.batchSize

/-- The statements `read` are in complete batches that a run is through with, or pending. -/
structure Between (s : Settings) (format : Format) (mode : Mode) (read : List Text) (w : Work)
    (batch : Array Text) : Prop where
  through : Reached s format mode none (read.take (complete s read)) w
  pending : batch.toList = read.drop (complete s read)

variable {s : Settings} {format : Format} {mode : Mode} {read : List Text} {w : Work}

/-- Without a limit a part of a run gets to its end. -/
theorem Ends.reached {done : List Text} {outcome : Work × Except Failure Unit}
    (h : Ends s format mode none done outcome) :
    ∃ w, outcome = (w, .ok ()) ∧ Reached s format mode none done w := by
  obtain h | ⟨_, _, hover, _⟩ := h
  · exact h
  · exact absurd (Sink.fits_none _) hover

theorem between_start (s : Settings) (format : Format) (mode : Mode) :
    Between s format mode [] (Work.start s (.start format mode (.empty none))) #[] where
  through := by simpa using reached_start s format mode none
  pending := by simp

theorem Between.size_eq {batch : Array Text} (h : Between s format mode read w batch) :
    batch.size = read.length % s.batchSize := by
  rw [← Array.length_toList, h.pending, List.length_drop, complete, Nat.mod_eq_sub_div_mul]

theorem complete_concat_of_full {q : Text} (h : read.length % s.batchSize + 1 = s.batchSize) :
    complete s (read ++ [q]) = (read ++ [q]).length := by
  have hdivides : s.batchSize ∣ read.length + 1 := by
    refine ⟨read.length / s.batchSize + 1, ?_⟩
    have hsplit := Nat.div_add_mod read.length s.batchSize
    rw [Nat.mul_add]
    omega
  rw [complete, List.length_append, List.length_singleton, Nat.div_mul_cancel hdivides]

theorem complete_concat_of_not_full {q : Text}
    (h : read.length % s.batchSize + 1 ≠ s.batchSize) :
    complete s (read ++ [q]) = complete s read := by
  have hdiv : (read.length + 1) / s.batchSize = read.length / s.batchSize := by
    obtain hzero | hpos := Nat.eq_zero_or_pos s.batchSize
    · rw [hzero, Nat.div_zero, Nat.div_zero]
    · have hlt := Nat.mod_lt read.length hpos
      have hsplit := Nat.div_add_mod read.length s.batchSize
      exact Nat.div_eq_of_lt_le (by rw [Nat.mul_comm]; omega)
        (by rw [Nat.add_mul, Nat.one_mul, Nat.mul_comm]; omega)
  rw [complete, List.length_append, List.length_singleton, hdiv, complete]

/-- One more statement fills the pending batch, which is then flushed, or is pending with it. -/
theorem Between.step {batch : Array Text} (h : Between s format mode read w batch)
    (clock : Nat → Nat) (q : Text) :
    ∃ w' batch',
      (∀ rest, w.through s clock batch (.statement q :: rest) = w'.through s clock batch' rest) ∧
      Between s format mode (read ++ [q]) w' batch' := by
  have hsize : (batch.push q).size = read.length % s.batchSize + 1 := by
    rw [Array.size_push, h.size_eq]
  have hwithin : complete s read ≤ read.length := Nat.div_mul_le_self _ _
  by_cases hfull : read.length % s.batchSize + 1 = s.batchSize
  · obtain ⟨w', hflush, hthrough⟩ := (h.through.flush (batch.push q)).reached
    have hall : read.take (complete s read) ++ (batch.push q).toList = read ++ [q] := by
      rw [Array.toList_push, h.pending, ← List.append_assoc, List.take_append_drop]
    refine ⟨w'.report s clock, #[], fun rest => ?_, ?_, ?_⟩
    · rw [Work.through, hsize, if_pos hfull, hflush]
    · rw [complete_concat_of_full hfull, List.take_length, ← hall]
      exact hthrough.report clock
    · rw [complete_concat_of_full hfull, List.drop_length]
  · refine ⟨w, batch.push q, fun rest => ?_, ?_, ?_⟩
    · rw [Work.through, hsize, if_neg hfull]
    · rw [complete_concat_of_not_full hfull, List.take_append_of_le_length hwithin]
      exact h.through
    · rw [complete_concat_of_not_full hfull, List.drop_append_of_le_length hwithin,
        Array.toList_push, h.pending]

theorem Between.run {batch : Array Text} (h : Between s format mode read w batch)
    (clock : Nat → Nat) (statements : List Text) :
    ∃ w' batch',
      (∀ rest, w.through s clock batch (statements.map .statement ++ rest) =
        w'.through s clock batch' rest) ∧
      Between s format mode (read ++ statements) w' batch' := by
  induction statements generalizing read w batch with
  | nil => exact ⟨w, batch, fun _ => rfl, by rwa [List.append_nil]⟩
  | cons q statements ih =>
      obtain ⟨w', batch', hstep, hbetween⟩ := h.step clock q
      obtain ⟨w'', batch'', hrun, hend⟩ := ih hbetween
      refine ⟨w'', batch'', fun rest => (hstep _).trans (hrun rest), ?_⟩
      rwa [List.append_assoc] at hend

/-- A run that cannot read on ends with the reason and does not look further. It has written the
complete batches in front of the failure, record by record, and nothing of what it keeps for the end
of the report. -/
theorem process_stops_at_failure (s : Settings) (clock : Nat → Nat) (format : Format)
    (mode : Mode) (statements : List Text) (reason : Text) (rest : List Log.Item)
    (hroom : s.batchSize ≤ largest) :
    let writer := Writer.start format mode (.empty none)
    let outcome := process s clock writer (statements.map .statement ++ .failure reason :: rest)
    outcome.result = .error (.io reason) ∧
      (∀ rest', process s clock writer (statements.map .statement ++ .failure reason :: rest') =
        outcome) ∧
      outcome.writer.sink.taken.toList =
        if s.mode = .summary ∨ format = .json then []
        else
          let count := statements.length / s.batchSize * s.batchSize
          Utf8.encode
            (Report.ofRecords format mode ((statements.take count).map Report.recordOf)) := by
  obtain ⟨w, batch, hrun, hbetween⟩ := (between_start s format mode).run clock statements
  have houtcome : ∀ rest, process s clock (.start format mode (.empty none))
      (statements.map .statement ++ .failure reason :: rest) =
        ⟨w.writer, (w.note s (.failed reason)).events.toList, [], .error (.io reason)⟩ := by
    intro rest
    rw [process_of_room hroom, hrun, Work.through]
    simp only [conclude, writer_note]
  have htaken := congrArg (·.sink.taken.toList) hbetween.through.writer
  dsimp only
  rw [houtcome rest]
  refine ⟨rfl, houtcome, htaken.trans ?_⟩
  simp only [Sink.taken_after_none, List.nil_append, streamed, digest_eq_map_recordOf]
  cases hm : s.mode with
  | summary => simp [handed, hm, rowsText]
  | fingerprint | tables =>
      cases format with
      | json => simp
      | text | ndjson => simp [handed, hm, complete, Writer.rowsText_eq_ofRecords]

/-- One batch is complete, and a statement behind the failure would have filled the other one. -/
theorem process_stops_at_failure_in_batch :
    let s : Settings := { threads := 2, batchSize := 2, mode := .tables }
    let statements := ["select 1 from b, c", "commit", "use a"].map String.toList
    let outcome := process s id (.start .text .tables (.empty none))
      (statements.map .statement ++ [.failure "x".toList, .statement "use d".toList])
    s.batchSize ≤ largest ∧ outcome.result = .error (.io "x".toList) ∧
      outcome.writer.sink.taken.toList = Utf8.encode "b,c\n\n".toList := by
  intro s statements outcome
  obtain ⟨hresult, -, htaken⟩ := process_stops_at_failure s id .text .tables statements "x".toList
    [.statement "use d".toList] (by decide)
  exact ⟨by decide, hresult, htaken.trans (by decide +kernel)⟩

/-- Without room for a batch the failure is not reached. -/
theorem process_stops_without_room :
    let s : Settings := { threads := 1, batchSize := 18446744073709551615 }
    let outcome := process s id (.start .text .fingerprint (.empty none))
      [.statement "select 1".toList, .failure "boom".toList]
    1 ≤ s.batchSize ∧ outcome.result = .error .noRoom ∧
      ¬ outcome.result = .error (.io "boom".toList) := by
  intro s outcome
  have hresult : outcome.result = .error .noRoom :=
    congrArg Outcome.result (process_of_no_room (by decide) id _ _)
  refine ⟨by decide, hresult, ?_⟩
  rw [hresult]
  decide

end QueryDigest.Batch
