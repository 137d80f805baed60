import QueryDigest.Proofs.Report.Writing

/-!
Calls on one writer, which go on behind a call that fails. What a call writes depends on the call
alone, and on all records before it at the end of a JSON report. The output without a limit is the
texts of the calls in a row; a sink with a limit cuts that output short, and from there on every
call fails that has something to write.
-/

namespace QueryDigest.Writer

open Sink (verdict)

/-- What may be asked of a writer until its report is finished. -/
inductive Call where
  | record (r : Record)
  | batch (records : List Record)
  | summary (buckets : List Bucket)

def call (w : Writer) : Call → Writer × Except Failure Unit
  | .record r => w.record r
  | .batch records => w.batch records
  | .summary buckets => w.summary buckets

/-- Calls one after the other, those behind a failed one included, with the result of each. -/
def calls (w : Writer) : List Call → Writer × List (Except Failure Unit)
  | [] => (w, [])
  | c :: rest =>
    let (w, result) := w.call c
    let (w, results) := w.calls rest
    (w, result :: results)

/-- Calls and then the end of the report, with the result of each. -/
def session (w : Writer) (cs : List Call) : Writer × List (Except Failure Unit) :=
  let (w, results) := w.calls cs
  let (w, result) := w.finish
  (w, results ++ [result])

/-! ### What calls write -/

namespace Call

def records : Call → List Record
  | .record r => [r]
  | .batch records => records
  | .summary _ => []

def text (format : Format) (mode : Mode) : Call → Text
  | .record r => rowText format mode r
  | .batch records => rowsText format mode records
  | .summary buckets => Report.ofBuckets format buckets

theorem records_map_record (rs : List Record) : (rs.map record).flatMap records = rs := by
  rw [List.flatMap_map]
  exact List.flatMap_singleton' rs

end Call

/-- What is written at the end of a report on records: in JSON the array of all of them, unless the
report is a summary. -/
def lastText (format : Format) (mode : Mode) (records : List Record) : Text :=
  match format, mode with
  | .json, .fingerprint | .json, .tables =>
    Report.ofRecords .json mode records
  | _, _ => []

/-- The bytes that each of the calls writes, and behind them those of the end of the report. -/
def written (format : Format) (mode : Mode) (cs : List Call) : List (List UInt8) :=
  (cs.map (Call.text format mode) ++ [lastText format mode (cs.flatMap Call.records)]).map
    Utf8.encode

theorem closing_heldBack (format : Format) (mode : Mode) (records : List Record) (sink : Sink) :
    closing ⟨format, mode, (heldBack format records).toArray, sink⟩ =
      lastText format mode records := by
  cases format <;> cases mode <;> rfl

theorem encode_rowsText (format : Format) (mode : Mode) (records : List Record) :
    Utf8.encode (rowsText format mode records) =
      (records.map fun r => Utf8.encode (rowText format mode r)).flatten := by
  rw [Utf8.encode, rowsText, List.flatMap_assoc, ← List.flatMap_def]
  rfl

/-- The results of sending parts one after the other behind what has been sent earlier. -/
def verdicts (limit : Option Nat) (earlier : List UInt8) :
    List (List UInt8) → List (Except Failure Unit)
  | [] => []
  | bytes :: rest => verdict limit earlier bytes :: verdicts limit (earlier ++ bytes) rest

section

variable {limit : Option Nat} {bytes : List UInt8} {w : Writer}

theorem call_after (hsink : w.sink = .after limit bytes) (c : Call) :
    w.call c =
      ({ w with
          held := w.held ++ heldBack w.format c.records
          sink := .after limit (bytes ++ Utf8.encode (c.text w.format w.mode)) },
        verdict limit bytes (Utf8.encode (c.text w.format w.mode))) := by
  cases c with
  | record r =>
      cases hf : w.format with
      | json =>
          simp [call, Writer.record, Call.records, Call.text, rowText, heldBack, verdict, hf,
            ← hsink]
      | text | ndjson =>
          have hput := put_after hsink (rowText w.format w.mode r)
          rw [← record_eq_put (by simp [hf])] at hput
          simpa [call, Call.text, heldBack, hf] using hput
  | batch records => exact batch_after hsink records
  | summary buckets =>
      have hput := put_after hsink (Report.ofBuckets w.format buckets)
      simpa [call, summary, summaryText_eq_ofBuckets, Call.text, Call.records] using hput

theorem calls_after (hsink : w.sink = .after limit bytes) (cs : List Call) :
    w.calls cs =
      ({ w with
          held := w.held ++ heldBack w.format (cs.flatMap Call.records)
          sink := .after limit
            (bytes ++ (cs.map fun c => Utf8.encode (c.text w.format w.mode)).flatten) },
        verdicts limit bytes (cs.map fun c => Utf8.encode (c.text w.format w.mode))) := by
  induction cs generalizing w bytes with
  | nil => simp [calls, verdicts, ← hsink]
  | cons c rest ih =>
      have hheld : w.held ++ heldBack w.format c.records ++
          heldBack w.format (rest.flatMap Call.records) =
            w.held ++ heldBack w.format (c.records ++ rest.flatMap Call.records) := by
        rw [heldBack_append]
        exact Array.toList_inj.mp (by simp)
      simp only [calls, call_after hsink c]
      rw [ih rfl]
      simp [verdicts, hheld]

end

theorem verdicts_concat (limit : Option Nat) (earlier bytes : List UInt8)
    (parts : List (List UInt8)) :
    verdicts limit earlier (parts ++ [bytes]) =
      verdicts limit earlier parts ++ [verdict limit (earlier ++ parts.flatten) bytes] := by
  induction parts generalizing earlier with
  | nil => simp [verdicts]
  | cons part rest ih => simp [verdicts, ih]

/-- A session sends what its calls write, in a row, and each call ends by how its bytes fit. -/
theorem session_start (format : Format) (mode : Mode) (limit : Option Nat) (cs : List Call) :
    (start format mode (.empty limit)).session cs =
      (⟨format, mode, (heldBack format (cs.flatMap Call.records)).toArray,
          .after limit (written format mode cs).flatten⟩,
        verdicts limit [] (written format mode cs)) := by
  have hsink : (start format mode (.empty limit)).sink = .after limit [] :=
    (Sink.after_nil limit).symm
  have hcalls : (start format mode (.empty limit)).calls cs =
      (⟨format, mode, (heldBack format (cs.flatMap Call.records)).toArray,
          .after limit (cs.map fun c => Utf8.encode (c.text format mode)).flatten⟩,
        verdicts limit [] (cs.map fun c => Utf8.encode (c.text format mode))) := by
    rw [calls_after hsink]
    simp [start]
  simp only [session, hcalls, finish, closing_heldBack]
  rw [put_after rfl]
  simp [written, verdicts_concat, Function.comp_def]

/-! ### Which calls fail -/

/-- The call at an index has failed. -/
def FailsAt (results : List (Except Failure Unit)) (i : Nat) : Prop :=
  ∃ failure, results[i]? = some (.error failure)

/-- The number of bytes up to the end of the part at an index. -/
def stopAt (parts : List (List UInt8)) (i : Nat) : Nat :=
  (parts.take (i + 1)).flatten.length

section

variable {n i : Nat} {bytes : List UInt8} {parts : List (List UInt8)}

theorem length_verdicts (limit : Option Nat) (earlier : List UInt8)
    (parts : List (List UInt8)) : (verdicts limit earlier parts).length = parts.length := by
  induction parts generalizing earlier with
  | nil => rfl
  | cons bytes rest ih => rw [verdicts, List.length_cons, List.length_cons, ih]

theorem getElem?_verdicts (limit : Option Nat) (earlier : List UInt8)
    (parts : List (List UInt8)) (i : Nat) :
    (verdicts limit earlier parts)[i]? =
      parts[i]?.map (verdict limit (earlier ++ (parts.take i).flatten)) := by
  induction parts generalizing earlier i with
  | nil => rfl
  | cons bytes rest ih =>
      cases i with
      | zero => simp [verdicts]
      | succ i => simp [verdicts, ih]

theorem ok_of_mem_verdicts {earlier : List UInt8} {result : Except Failure Unit}
    (h : result ∈ verdicts none earlier parts) : result = .ok () := by
  induction parts generalizing earlier with
  | nil => cases h
  | cons bytes rest ih =>
      obtain rfl | h := List.mem_cons.mp h
      · rw [verdict, if_pos (Or.inr (Sink.fits_none _))]
      · exact ih h

theorem stopAt_eq (h : parts[i]? = some bytes) :
    stopAt parts i = ((parts.take i).flatten ++ bytes).length := by
  simp [stopAt, List.take_add_one, h]

theorem stopAt_mono (parts : List (List UInt8)) {i j : Nat} (h : i ≤ j) :
    stopAt parts i ≤ stopAt parts j := by
  obtain ⟨k, rfl⟩ := Nat.exists_eq_add_of_le h
  have htake : parts.take (i + k + 1) = parts.take (i + 1) ++ (parts.drop (i + 1)).take k := by
    rw [← List.take_add, Nat.add_right_comm]
  rw [stopAt, stopAt, htake, List.flatten_append, List.length_append]
  exact Nat.le_add_right _ _

/-- The first part that ends beyond a place has bytes of its own. -/
theorem exists_part_of_first (hstop : n < stopAt parts i)
    (hearlier : ∀ j < i, stopAt parts j ≤ n) : ∃ bytes, parts[i]? = some bytes ∧ bytes ≠ [] := by
  have hstart : (parts.take i).flatten.length ≤ n := by
    cases i with
    | zero => exact Nat.zero_le n
    | succ i => exact hearlier i (Nat.lt_succ_self i)
  cases hpart : parts[i]? with
  | none =>
      rw [stopAt, List.take_add_one, hpart, Option.toList_none, List.append_nil] at hstop
      omega
  | some bytes =>
      refine ⟨bytes, rfl, ?_⟩
      rintro rfl
      rw [stopAt_eq hpart, List.append_nil] at hstop
      omega

theorem verdict_eq_error {earlier : List UInt8} :
    (∃ failure, verdict (some n) earlier bytes = .error failure) ↔
      n < (earlier ++ bytes).length ∧ bytes ≠ [] := by
  simp only [verdict, Sink.fits_some]
  split
  · rename_i hok
    constructor
    · rintro ⟨_, ⟨⟩⟩
    · rintro ⟨hover, hne⟩
      exact absurd hok (not_or.mpr ⟨hne, Nat.not_le_of_lt hover⟩)
  · rename_i hfull
    rw [not_or, Nat.not_le] at hfull
    exact iff_of_true ⟨Sink.full, rfl⟩ hfull.symm

theorem failsAt_verdicts :
    FailsAt (verdicts (some n) [] parts) i ↔
      n < stopAt parts i ∧ ∃ bytes, parts[i]? = some bytes ∧ bytes ≠ [] := by
  rw [FailsAt, getElem?_verdicts]
  cases hpart : parts[i]? with
  | none => simp
  | some bytes =>
      rw [stopAt_eq hpart]
      simp only [Option.map_some, Option.some.injEq, List.nil_append, exists_eq_left',
        verdict_eq_error]

theorem first_failsAt_verdicts :
    (FailsAt (verdicts (some n) [] parts) i ∧
        ∀ j < i, ¬ FailsAt (verdicts (some n) [] parts) j) ↔
      n < stopAt parts i ∧ ∀ j < i, stopAt parts j ≤ n := by
  constructor
  · rintro ⟨hfails, hearlier⟩
    refine ⟨(failsAt_verdicts.mp hfails).1, fun j => ?_⟩
    induction j using Nat.strongRecOn with
    | _ j ih =>
        intro hj
        refine Nat.le_of_not_lt fun hstop => ?_
        have hpart := exists_part_of_first hstop fun k hk => ih k hk (Nat.lt_trans hk hj)
        exact hearlier j hj (failsAt_verdicts.mpr ⟨hstop, hpart⟩)
  · rintro ⟨hstop, hearlier⟩
    refine ⟨failsAt_verdicts.mpr ⟨hstop, exists_part_of_first hstop hearlier⟩, ?_⟩
    intro j hj hfails
    exact Nat.not_le_of_lt (failsAt_verdicts.mp hfails).1 (hearlier j hj)

end

/-- Without a limit a session writes the texts of its calls in a row, and a batch is worth as much
as its records one by one. With a limit the output is cut there: the first call to fail is the
first one whose text ends beyond it, and behind that one exactly the calls with something to write
fail. -/
theorem session_writes (format : Format) (mode : Mode) :
    (∀ cs : List Call,
      let writer := start format mode (.empty none)
      (writer.calls cs).1.sink.taken.toList =
          (cs.map fun c => Utf8.encode (c.text format mode)).flatten ∧
        (writer.session cs).1.sink.taken.toList = (written format mode cs).flatten ∧
        ∀ result ∈ (writer.session cs).2, result = .ok ()) ∧
    (∀ (earlier later : List Call) (records : List Record),
      let writer := start format mode (.empty none)
      (writer.session (earlier ++ .batch records :: later)).1 =
        (writer.session (earlier ++ records.map .record ++ later)).1) ∧
    ∀ (n : Nat) (cs : List Call),
      let parts := written format mode cs
      let outcome := (start format mode (.empty (some n))).session cs
      outcome.1.sink.taken.toList = parts.flatten.take n ∧
        outcome.2.length = parts.length ∧
        (∀ i, (FailsAt outcome.2 i ∧ ∀ j < i, ¬ FailsAt outcome.2 j) ↔
          n < stopAt parts i ∧ ∀ j < i, stopAt parts j ≤ n) ∧
        (∀ i j, i < j → FailsAt outcome.2 i → (∃ bytes, parts[j]? = some bytes ∧ bytes ≠ []) →
          FailsAt outcome.2 j) ∧
        ∀ i : Nat, parts[i]? = some [] → outcome.2[i]? = some (.ok () : Except Failure Unit) := by
  refine ⟨fun cs => ⟨?_, ?_, ?_⟩, ?_, fun n cs => ?_⟩
  · have hsink : (start format mode (.empty none)).sink = .after none [] := rfl
    rw [calls_after hsink]
    simp [start]
  · rw [session_start, Sink.taken_after_none]
  · rw [session_start]
    exact fun result => ok_of_mem_verdicts
  · intro earlier later records
    simp only [session_start]
    simp [written, Call.text, encode_rowsText, Call.records_map_record, Call.records,
      Function.comp_def]
  · dsimp only
    rw [session_start, Sink.taken_after_some]
    refine ⟨rfl, length_verdicts .., fun i => first_failsAt_verdicts, ?_, ?_⟩
    · intro i j hij hfails hpart
      have hstop := Nat.lt_of_lt_of_le (failsAt_verdicts.mp hfails).1
        (stopAt_mono _ (Nat.le_of_lt hij))
      exact failsAt_verdicts.mpr ⟨hstop, hpart⟩
    · intro i hpart
      rw [getElem?_verdicts, hpart]
      rfl

/-- Room for eight bytes: the batch is cut in its first line and its second one is lost, the empty
batch still succeeds, and the record behind it fails. -/
theorem session_writes_cut_short :
    let row (fingerprint : String) : Record := ⟨[], fingerprint.toList, []⟩
    let cs := [.record (row "BEGIN"), .batch [row "COMMIT", row "USE"], .batch [],
      .record (row "SET")]
    let outcome := (start .text .fingerprint (.empty (some 8))).session cs
    outcome.1.sink.taken.toList = Utf8.encode "BEGIN\nCO".toList ∧
      (FailsAt outcome.2 1 ∧ ∀ j < 1, ¬ FailsAt outcome.2 j) ∧
      outcome.2[2]? = some (.ok () : Except Failure Unit) ∧ FailsAt outcome.2 3 ∧
      outcome.2[4]? = some (.ok () : Except Failure Unit) := by
  intro row cs
  have hwritten : written .text .fingerprint cs =
      ["BEGIN\n", "COMMIT\nUSE\n", "", "SET\n", ""].map (Utf8.encode ·.toList) := by
    decide +kernel
  obtain ⟨-, -, hcut⟩ := session_writes .text .fingerprint
  obtain ⟨htaken, -, hfirst, hlater, hempty⟩ := hcut 8 cs
  rw [hwritten] at htaken hfirst hlater hempty
  have hfails := (hfirst 1).mpr (by decide +kernel)
  exact ⟨htaken.trans (by decide +kernel), hfails, hempty 2 (by decide +kernel),
    hlater 1 3 (by decide) hfails.1 ⟨_, rfl, by decide +kernel⟩, hempty 4 (by decide +kernel)⟩

end QueryDigest.Writer
