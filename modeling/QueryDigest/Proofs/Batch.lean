import QueryDigest.Batch
import QueryDigest.Proofs.Report.Writing
import QueryDigest.Proofs.Tally

/-!
A run over statements against the report on the statements taken one by one. The report knows of no
batches, threads, progress or writers; a run whose batches have room writes exactly that report, or
as many of its bytes as the sink takes. The invariant of the run ties together the writer, the tally
and the statements done.
-/

namespace QueryDigest

namespace Report

/-- A statement with its fingerprint and its tables, each found on its own. -/
def recordOf (statement : Text) : Record :=
  ⟨statement, fingerprint statement, tablesOf statement⟩

/-- The buckets of records: fingerprints by falling frequency, first comers first among equals. -/
def bucketsOf (records : List Record) : List Bucket :=
  let additions := Tally.additionsOf records
  ((Tally.fingerprints additions).map (Tally.bucketOf additions)).mergeSort
    fun a b => b.count ≤ a.count

/-- The report on statements that are taken one by one. -/
def ofStatements (format : Format) (mode : Mode) (statements : List Text) : Text :=
  let records := statements.map recordOf
  match mode with
  | .summary => ofBuckets format (bucketsOf records)
  | .fingerprint | .tables => ofRecords format mode records

end Report

namespace Batch

open Writer (rowsText heldBack)

/-- The records of a run that are handed to its writer as they come. -/
def handed (s : Settings) (records : List Record) : List Record :=
  match s.mode with
  | .summary => []
  | .fingerprint | .tables => records

def counted (s : Settings) (records : List Record) : List (Text × Text) :=
  match s.mode with
  | .summary => Tally.additionsOf records
  | .fingerprint | .tables => []

/-- The bytes that a run has sent when it is through with statements and nothing has been finished
yet. -/
def streamed (s : Settings) (format : Format) (mode : Mode) (statements : List Text) : List UInt8 :=
  Utf8.encode (rowsText format mode (handed s (digest statements)))

/-- The state of a run into a sink in which everything has fitted so far, when it is through with
the statements `done`. -/
structure Reached (s : Settings) (format : Format) (mode : Mode) (limit : Option Nat)
    (done : List Text) (w : Work) : Prop where
  writer : w.writer = ⟨format, mode, (heldBack format (handed s (digest done))).toArray,
    .after limit (streamed s format mode done)⟩
  fits : Sink.Fits limit (streamed s format mode done)
  tally : w.tally.Counts (counted s (digest done))
  processed : w.processed = done.length

/-- How a part of a run ends that was to be through with the statements `done`: it got there, or
the sink was full before. -/
def Ends (s : Settings) (format : Format) (mode : Mode) (limit : Option Nat) (done : List Text)
    (outcome : Work × Except Failure Unit) : Prop :=
  (∃ w, outcome = (w, .ok ()) ∧ Reached s format mode limit done w) ∨
  ∃ w, outcome = (w, .error Sink.full) ∧ ¬ Sink.Fits limit (streamed s format mode done) ∧
    w.writer.sink = .after limit (streamed s format mode done)

variable {s : Settings} {format : Format} {mode : Mode} {limit : Option Nat} {done : List Text}
  {w : Work}

theorem digest_append (xs ys : List Text) : digest (xs ++ ys) = digest xs ++ digest ys :=
  List.map_append

theorem handed_append (xs ys : List Record) :
    handed s (xs ++ ys) = handed s xs ++ handed s ys := by
  cases hm : s.mode <;> simp [handed, hm]

theorem streamed_append (xs ys : List Text) :
    streamed s format mode (xs ++ ys) =
      streamed s format mode xs ++ streamed s format mode ys := by
  rw [streamed, digest_append, handed_append, rowsText, List.flatMap_append, Utf8.encode_append]
  rfl

@[simp] theorem streamed_nil : streamed s format mode [] = [] := by
  cases hm : s.mode <;> simp [streamed, digest, handed, hm, rowsText]

@[simp] theorem writer_note (event : Progress.Event) : (w.note s event).writer = w.writer := by
  rw [Work.note]
  split <;> rfl

@[simp] theorem processed_note (event : Progress.Event) :
    (w.note s event).processed = w.processed := by
  rw [Work.note]
  split <;> rfl

theorem reached_start (s : Settings) (format : Format) (mode : Mode) (limit : Option Nat) :
    Reached s format mode limit [] (Work.start s (.start format mode (.empty limit))) where
  writer := by
    rw [streamed_nil, Sink.after_nil]
    cases hm : s.mode <;> simp [Work.start, Writer.start, digest, handed, hm]
  fits := by
    rw [streamed_nil]
    exact fun _ _ => Nat.zero_le _
  tally := by
    cases hm : s.mode <;> simpa [Work.start, digest, counted, hm, Tally.additionsOf] using
      Tally.counts_empty
  processed := rfl

theorem Reached.report (h : Reached s format mode limit done w) (clock : Nat → Nat) :
    Reached s format mode limit done (w.report s clock) := by
  simp only [Work.report, Work.note]
  split
  · split
    · exact ⟨h.writer, h.fits, h.tally, h.processed⟩
    · exact ⟨h.writer, h.fits, h.tally, h.processed⟩
  · exact ⟨h.writer, h.fits, h.tally, h.processed⟩

/-- A batch that is flushed adds its records to what the run has written, kept and counted. -/
theorem Reached.flush (h : Reached s format mode limit done w) (batch : Array Text) :
    Ends s format mode limit (done ++ batch.toList) (w.flush s batch) := by
  obtain ⟨hwriter, hfits, htally, hprocessed⟩ := h
  cases hm : s.mode with
  | summary =>
      have hstreamed (statements : List Text) : streamed s format mode statements = [] := by
        simp [streamed, handed, hm, rowsText]
      simp only [Work.flush, hm]
      refine .inl ⟨_, rfl, ?_, ?_, ?_, ?_⟩
      · simp [hwriter, handed, hm, hstreamed]
      · rwa [hstreamed] at hfits ⊢
      · have hcounted := htally.addRecords (digest batch.toList)
        simpa [counted, hm, digest_append, Tally.additionsOf] using hcounted
      · simp [hprocessed, digest]
  | fingerprint | tables =>
      have hhanded (statements : List Text) : handed s (digest statements) = digest statements := by
        simp [handed, hm]
      have hsink : w.writer.sink = .after limit (streamed s format mode done) := by rw [hwriter]
      have hbatch : w.writer.batch (digest batch.toList) =
          (⟨format, mode, (heldBack format (handed s (digest (done ++ batch.toList)))).toArray,
              .after limit (streamed s format mode (done ++ batch.toList))⟩,
            if Sink.Fits limit (streamed s format mode (done ++ batch.toList)) then .ok ()
            else .error Sink.full) := by
        rw [Writer.batch_of_fits hsink hfits, hwriter, streamed_append, digest_append,
          handed_append, Writer.heldBack_append]
        simp [streamed, hhanded]
      simp only [Work.flush, hm, hbatch]
      by_cases hall : Sink.Fits limit (streamed s format mode (done ++ batch.toList))
      · rw [if_pos hall]
        refine .inl ⟨_, rfl, rfl, hall, ?_, ?_⟩
        · simpa [counted, hm] using htally
        · simp [hprocessed, digest]
      · rw [if_neg hall]
        exact .inr ⟨_, rfl, hall, rfl⟩

theorem ends_of_full (more : List Text)
    (hover : ¬ Sink.Fits limit (streamed s format mode done))
    (hsink : w.writer.sink = .after limit (streamed s format mode done)) :
    Ends s format mode limit (done ++ more) (w, .error Sink.full) := by
  rw [Ends, streamed_append, Sink.after_append_of_not_fits hover]
  exact .inr ⟨w, rfl, fun hall => hover hall.of_append, hsink⟩

theorem Reached.through (h : Reached s format mode limit done w) (clock : Nat → Nat)
    (batch : Array Text) (statements : List Text) :
    Ends s format mode limit (done ++ batch.toList ++ statements)
      (w.through s clock batch (statements.map .statement)) := by
  induction statements generalizing done w batch with
  | nil =>
      rw [List.map_nil, Work.through, List.append_nil]
      split
      · rename_i hempty
        have hnil : batch.toList = [] := by simpa using hempty
        rw [hnil, List.append_nil]
        exact .inl ⟨w, rfl, h⟩
      · exact h.flush batch
  | cons statement rest ih =>
      have hall : done ++ batch.toList ++ statement :: rest =
          done ++ (batch.push statement).toList ++ rest := by simp
      rw [List.map_cons, Work.through, hall]
      split
      · obtain ⟨w', hw, hreached⟩ | ⟨w', hw, hover, hsink⟩ := h.flush (batch.push statement)
        · rw [hw]
          have hrest := ih (hreached.report clock) #[]
          simpa using hrest
        · rw [hw]
          exact ends_of_full rest hover hsink
      · exact ih h (batch.push statement)

theorem ranked_eq_bucketsOf {t : Tally} {records : List Record}
    (h : t.Counts (Tally.additionsOf records)) : t.ranked = Report.bucketsOf records := by
  rw [Tally.ranked, h.buckets, Report.bucketsOf]

theorem digest_eq_map_recordOf (statements : List Text) :
    digest statements = statements.map Report.recordOf := rfl

theorem through_statements (s : Settings) (limit : Option Nat) (clock : Nat → Nat)
    (statements : List Text) :
    Ends s s.format s.mode limit statements
      ((Work.start s (.start s.format s.mode (.empty limit))).through s clock #[]
        (statements.map .statement)) := by
  simpa using (reached_start s s.format s.mode limit).through clock #[] statements

theorem process_of_room (hroom : s.batchSize ≤ largest) (clock : Nat → Nat) (writer : Writer)
    (items : List Log.Item) :
    process s clock writer items =
      conclude s ((Work.start s writer).through s clock #[] items) :=
  if_neg (Nat.not_lt.mpr hroom)

/-- Without room for a batch a run does nothing. -/
theorem process_of_no_room (hroom : largest < s.batchSize) (clock : Nat → Nat) (writer : Writer)
    (items : List Log.Item) :
    process s clock writer items =
      ⟨writer, (Work.start s writer).events.toList, [], .error .noRoom⟩ :=
  if_pos hroom

theorem room_of_process {clock : Nat → Nat} {writer : Writer} {items : List Log.Item} {count : Nat}
    (h : (process s clock writer items).result = .ok count) : s.batchSize ≤ largest := by
  refine Nat.le_of_not_lt fun hroom => ?_
  rw [process_of_no_room hroom] at h
  cases h

theorem process_summary (hroom : s.batchSize ≤ largest) (hm : s.mode = .summary)
    (limit : Option Nat) (clock : Nat → Nat) (statements : List Text) :
    let report := Utf8.encode (Report.ofStatements s.format s.mode statements)
    let outcome := process s clock (.start s.format s.mode (.empty limit))
      (statements.map .statement)
    outcome.writer = ⟨s.format, s.mode, #[], .after limit report⟩ ∧
      outcome.result = if Sink.Fits limit report then .ok statements.length
        else .error Sink.full := by
  have hstreamed : streamed s s.format s.mode statements = [] := by
    simp [streamed, handed, hm, rowsText]
  obtain ⟨w, hw, hwriter, hfits, htally, hprocessed⟩ | ⟨w, -, hover, -⟩ :=
    through_statements s limit clock statements
  · have hranked : w.tally.ranked = Report.bucketsOf (statements.map Report.recordOf) := by
      apply ranked_eq_bucketsOf
      rw [← digest_eq_map_recordOf]
      simpa only [counted, hm] using htally
    have hput : w.writer.summary w.tally.ranked =
        (⟨s.format, s.mode, #[],
            .after limit (Utf8.encode (Report.ofStatements s.format s.mode statements))⟩,
          if Sink.Fits limit (Utf8.encode (Report.ofStatements s.format s.mode statements)) then
            .ok ()
          else .error Sink.full) := by
      rw [Writer.summary, Writer.summaryText_eq_ofBuckets,
        Writer.put_of_fits (congrArg Writer.sink hwriter) hfits, hranked, hwriter, hstreamed]
      simp [Report.ofStatements, handed, hm]
    simp only [process_of_room hroom, hw, conclude]
    simp only [hm] at hput ⊢
    rw [hput]
    by_cases hall :
        Sink.Fits limit (Utf8.encode (Report.ofStatements s.format .summary statements))
    · simp [if_pos hall, hprocessed]
    · simp [if_neg hall]
  · rw [hstreamed] at hover
    exact absurd (fun _ _ => Nat.zero_le _) hover

theorem process_rows (hroom : s.batchSize ≤ largest) (hm : s.mode ≠ .summary)
    (limit : Option Nat) (clock : Nat → Nat) (statements : List Text) :
    let rows := streamed s s.format s.mode statements
    let outcome := process s clock (.start s.format s.mode (.empty limit))
      (statements.map .statement)
    outcome.writer.sink = .after limit rows ∧
      if Sink.Fits limit rows then
        outcome.writer = ⟨s.format, s.mode, (heldBack s.format (digest statements)).toArray,
            .after limit rows⟩ ∧
          outcome.result = .ok statements.length
      else outcome.result = .error Sink.full := by
  have hhanded : handed s (digest statements) = digest statements := by
    cases hmode : s.mode with
    | summary => exact absurd hmode hm
    | fingerprint | tables => simp only [handed, hmode]
  obtain ⟨w, hw, hwriter, hfits, -, hprocessed⟩ | ⟨w, hw, hover, hsink⟩ :=
    through_statements s limit clock statements
  · simp only [process_of_room hroom, hw, conclude]
    rw [if_pos hfits]
    rw [hhanded] at hwriter
    cases hmode : s.mode with
    | summary => exact absurd hmode hm
    | fingerprint | tables => simp [hwriter, hmode, hprocessed]
  · simp only [process_of_room hroom, hw, conclude]
    rw [if_neg hover]
    exact ⟨hsink, trivial⟩

/-- Outside summary mode the report is what has been written for the records as they came and what
the writer holds back for the end. -/
theorem ofStatements_eq_streamed_append_closing (hm : s.mode ≠ .summary) (sink : Sink)
    (statements : List Text) :
    Utf8.encode (Report.ofStatements s.format s.mode statements) =
      streamed s s.format s.mode statements ++ Utf8.encode
        (Writer.closing ⟨s.format, s.mode, (heldBack s.format (digest statements)).toArray, sink⟩)
        := by
  rw [streamed, ← Utf8.encode_append, digest_eq_map_recordOf]
  congr 1
  cases hmode : s.mode with
  | summary => exact absurd hmode hm
  | fingerprint | tables =>
      cases hf : s.format with
      | text | ndjson =>
          simp [Report.ofStatements, handed, Writer.closing, hmode,
            Writer.rowsText_eq_ofRecords]
      | json =>
          simp [Report.ofStatements, handed, Writer.closing, heldBack, hmode,
            Writer.line_pretty s.mode, -List.map_map]

theorem check_of_pos (hthreads : 1 ≤ s.threads) (hbatch : 1 ≤ s.batchSize) :
    s.check = .ok () := by
  rw [Settings.check, if_neg (by omega), if_neg (by omega)]

theorem run_statements (hs : s.check = .ok ()) (hroom : s.batchSize ≤ largest)
    (limit : Option Nat) (clock : Nat → Nat) (statements : List Text) :
    let report := Utf8.encode (Report.ofStatements s.format s.mode statements)
    let outcome := run s clock (.start s.format s.mode (.empty limit))
      (statements.map .statement)
    outcome.writer.sink = .after limit report ∧
      outcome.result =
        if Sink.Fits limit report then .ok statements.length else .error Sink.full := by
  simp only [run, hs]
  by_cases hm : s.mode = .summary
  · obtain ⟨hwriter, hresult⟩ := process_summary hroom hm limit clock statements
    rw [hresult]
    by_cases hall : Sink.Fits limit (Utf8.encode (Report.ofStatements s.format s.mode statements))
    · have hclosing : Writer.closing ⟨s.format, s.mode, #[],
          .after limit (Utf8.encode (Report.ofStatements s.format s.mode statements))⟩ = [] := by
        simp [Writer.closing, hm]
      rw [if_pos hall, hwriter, Writer.finish_of_fits rfl hall, hclosing, Utf8.encode_nil,
        List.append_nil, if_pos hall]
      exact ⟨rfl, rfl⟩
    · rw [if_neg hall]
      exact ⟨congrArg Writer.sink hwriter, rfl⟩
  · obtain ⟨hsink, hrest⟩ := process_rows hroom hm limit clock statements
    have hreport := ofStatements_eq_streamed_append_closing hm
      (.after limit (streamed s s.format s.mode statements)) statements
    by_cases hrows : Sink.Fits limit (streamed s s.format s.mode statements)
    · rw [if_pos hrows] at hrest
      obtain ⟨hwriter, hresult⟩ := hrest
      rw [hresult, hwriter, Writer.finish_of_fits rfl hrows, ← hreport]
      by_cases hall :
          Sink.Fits limit (Utf8.encode (Report.ofStatements s.format s.mode statements))
      · simp [hall, Except.map]
      · simp [hall, Except.map]
    · rw [if_neg hrows] at hrest
      rw [hrest, hreport, Sink.after_append_of_not_fits hrows]
      refine ⟨hsink, ?_⟩
      rw [if_neg fun hall => hrows hall.of_append]

theorem run_of_no_room (hs : s.check = .ok ()) (hroom : largest < s.batchSize)
    (clock : Nat → Nat) (writer : Writer) (items : List Log.Item) :
    run s clock writer items =
      ⟨writer, (Work.start s writer).events.toList, [readyLine s], .error .noRoom⟩ := by
  simp only [run, hs, process_of_no_room hroom]

theorem process_count {clock : Nat → Nat} {statements : List Text} {count : Nat}
    (h : (process s clock (.start s.format s.mode (.empty limit))
      (statements.map .statement)).result = .ok count) : count = statements.length := by
  have hroom := room_of_process h
  by_cases hm : s.mode = .summary
  · have hresult := (process_summary hroom hm limit clock statements).2
    rw [h] at hresult
    split at hresult
    · exact Except.ok.inj hresult
    · cases hresult
  · have hrest := (process_rows hroom hm limit clock statements).2
    split at hrest
    · exact Except.ok.inj (h.symm.trans hrest.2)
    · rw [h] at hrest
      cases hrest

/-- A run that has room for its batches writes the report on its statements taken one by one, as far
as the sink takes it. Neither the size of the batches nor threads nor progress have a part in what
is written. -/
theorem run_writes_report (s : Settings) (clock : Nat → Nat) (n : Nat) (statements : List Text)
    (hthreads : 1 ≤ s.threads) (hbatch : 1 ≤ s.batchSize) (hroom : s.batchSize ≤ largest) :
    let report := Utf8.encode (Report.ofStatements s.format s.mode statements)
    let writer := Writer.start s.format s.mode (.empty (some n))
    let items := statements.map Log.Item.statement
    let outcome := run s clock writer items
    outcome.writer.sink.taken.toList = report.take n ∧
      ((∃ count, outcome.result = .ok count) ↔ report.length ≤ n) ∧
      (∀ count, (process s clock writer items).result = .ok count → count = statements.length) ∧
      ∀ (s' : Settings) (clock' : Nat → Nat), s'.format = s.format → s'.mode = s.mode →
        1 ≤ s'.threads → 1 ≤ s'.batchSize → s'.batchSize ≤ largest →
          (run s' clock' writer items).writer.sink = outcome.writer.sink := by
  obtain ⟨hsink, hresult⟩ :=
    run_statements (check_of_pos hthreads hbatch) hroom (some n) clock statements
  simp only [Sink.fits_some] at hresult
  refine ⟨by rw [hsink, Sink.taken_after_some], ?_, fun count => process_count, ?_⟩
  · rw [hresult]
    split <;> simp_all
  · intro s' clock' hformat hmode hthreads' hbatch' hroom'
    have hsink' :=
      (run_statements (check_of_pos hthreads' hbatch') hroom' (some n) clock' statements).1
    rw [hformat, hmode] at hsink'
    exact hsink'.trans hsink.symm

/-- Two statements in batches of one, with room for the first line and one byte more. -/
theorem run_writes_report_cut_short :
    let s : Settings := { threads := 2, batchSize := 1, progress := true }
    let statements := ["select 1".toList, "commit".toList]
    let outcome := run s id (.start s.format s.mode (.empty (some 8)))
      (statements.map .statement)
    1 ≤ s.threads ∧ 1 ≤ s.batchSize ∧ s.batchSize ≤ largest ∧
      outcome.writer.sink.taken.toList = Utf8.encode "SELECT\nC".toList ∧
      ¬ ∃ count, outcome.result = .ok count := by
  have hreport : Utf8.encode (Report.ofStatements .text .fingerprint
      ["select 1".toList, "commit".toList]) = Utf8.encode "SELECT\nCOMMIT\n".toList := by
    decide +kernel
  obtain ⟨htaken, hresult, -⟩ := run_writes_report
    { threads := 2, batchSize := 1, progress := true } id 8 ["select 1".toList, "commit".toList]
    (by decide) (by decide) (by decide)
  rw [hreport] at htaken hresult
  refine ⟨by decide, by decide, by decide, htaken.trans (by decide +kernel), ?_⟩
  rw [hresult]
  decide +kernel

/-- A batch of as many statements as a word counts is in order and has no room, so that a report
with room for all of its bytes is not written. -/
theorem run_writes_nothing_without_room :
    let s : Settings := { threads := 1, batchSize := 18446744073709551615 }
    let statements := ["select 1".toList]
    let report := Utf8.encode (Report.ofStatements s.format s.mode statements)
    let outcome := run s id (.start s.format s.mode (.empty (some 7)))
      (statements.map .statement)
    1 ≤ s.threads ∧ 1 ≤ s.batchSize ∧ report.length ≤ 7 ∧
      outcome.writer.sink.taken.toList = [] ∧ outcome.result = .error .noRoom ∧
      ¬ outcome.writer.sink.taken.toList = report.take 7 ∧
      ¬ ((∃ count, outcome.result = .ok count) ↔ report.length ≤ 7) := by
  intro s statements report outcome
  have hreport : report = Utf8.encode "SELECT\n".toList := by decide +kernel
  have houtcome : outcome = ⟨.start s.format s.mode (.empty (some 7)), [], [readyLine s],
      .error .noRoom⟩ :=
    run_of_no_room rfl (by decide) id _ _
  rw [houtcome, hreport]
  refine ⟨by decide, by decide, by decide +kernel, rfl, rfl, by decide +kernel, ?_⟩
  intro hiff
  obtain ⟨count, hcount⟩ := hiff.mpr (by decide +kernel)
  cases hcount

end Batch
end QueryDigest
