import QueryDigest.Proofs.Report.Contents
import QueryDigest.Proofs.Text.Utf8Bytes

/-!
Writing into a sink with or without a limit. A sink is known by the bytes that have been sent to it,
whether or not they fitted: it holds as many of them as there is room for. A writer therefore does
to its sink what its format says, call by call, and a call fails if it has bytes to write and they
do not all fit.
-/

namespace QueryDigest

namespace Sink

/-- A sink with room for `n` bytes to which the given bytes have been sent. -/
def sent (n : Nat) (bytes : List UInt8) : Sink :=
  ⟨some n, (bytes.take n).toArray⟩

theorem sent_nil (n : Nat) : sent n [] = empty (some n) := by
  simp [sent, empty]

theorem sent_append_of_full {n : Nat} {bytes : List UInt8} (h : n ≤ bytes.length)
    (more : List UInt8) : sent n (bytes ++ more) = sent n bytes := by
  rw [sent, sent, List.take_append_of_le_length h]

/-- A write adds its bytes to those sent. It succeeds if they fit or if there are none. -/
theorem write_sent (n : Nat) (bytes : List UInt8) (t : Text) :
    (sent n bytes).write t =
      (sent n (bytes ++ Utf8.encode t),
        if Utf8.encode t = [] ∨ (bytes ++ Utf8.encode t).length ≤ n then .ok ()
        else .error full) := by
  have hroom : n - (bytes.take n).length = n - bytes.length := by
    rw [List.length_take]
    omega
  have hresult : (Utf8.encode t).length ≤ n - bytes.length ↔
      Utf8.encode t = [] ∨ (bytes ++ Utf8.encode t).length ≤ n := by
    rw [List.length_append, ← List.length_eq_zero_iff]
    omega
  simp only [write, sent, List.size_toArray, hroom, hresult, List.take_append]
  simp

/-- A sink with or without a limit to which the given bytes have been sent. -/
def after : Option Nat → List UInt8 → Sink
  | some n, bytes => sent n bytes
  | none, bytes => ⟨none, bytes.toArray⟩

/-- There is room for all of the given bytes. -/
def Fits (limit : Option Nat) (bytes : List UInt8) : Prop :=
  ∀ n ∈ limit, bytes.length ≤ n

instance (limit : Option Nat) (bytes : List UInt8) : Decidable (Fits limit bytes) :=
  inferInstanceAs (Decidable (∀ n ∈ limit, bytes.length ≤ n))

variable {limit : Option Nat} {bytes : List UInt8}

theorem fits_some {n : Nat} : Fits (some n) bytes ↔ bytes.length ≤ n := by
  simp [Fits]

theorem fits_none (bytes : List UInt8) : Fits none bytes :=
  fun _ hn => nomatch hn

theorem Fits.of_append {more : List UInt8} (h : Fits limit (bytes ++ more)) :
    Fits limit bytes := by
  intro n hn
  have hall := h n hn
  rw [List.length_append] at hall
  omega

theorem after_nil (limit : Option Nat) : after limit [] = empty limit := by
  cases limit with
  | none => rfl
  | some n => exact sent_nil n

@[simp] theorem taken_after_none (bytes : List UInt8) : (after none bytes).taken.toList = bytes :=
  rfl

@[simp] theorem taken_after_some (n : Nat) (bytes : List UInt8) :
    (after (some n) bytes).taken.toList = bytes.take n :=
  rfl

theorem taken_after_of_fits (h : Fits limit bytes) : (after limit bytes).taken.toList = bytes := by
  cases limit with
  | none => rfl
  | some n => rw [taken_after_some, List.take_of_length_le (fits_some.mp h)]

theorem after_append_of_not_fits (h : ¬ Fits limit bytes) (more : List UInt8) :
    after limit (bytes ++ more) = after limit bytes := by
  cases limit with
  | none => exact absurd (fits_none bytes) h
  | some n =>
      rw [fits_some] at h
      exact sent_append_of_full (Nat.le_of_not_le h) more

/-- How a write ends that sends bytes behind those sent earlier. -/
def verdict (limit : Option Nat) (earlier bytes : List UInt8) : Except Failure Unit :=
  if bytes = [] ∨ Fits limit (earlier ++ bytes) then .ok () else .error full

theorem verdict_of_fits (h : Fits limit bytes) (more : List UInt8) :
    verdict limit bytes more = if Fits limit (bytes ++ more) then .ok () else .error full := by
  by_cases hmore : more = []
  · simp [verdict, hmore, h]
  · simp [verdict, hmore]

theorem write_after (limit : Option Nat) (bytes : List UInt8) (t : Text) :
    (after limit bytes).write t =
      (after limit (bytes ++ Utf8.encode t), verdict limit bytes (Utf8.encode t)) := by
  cases limit with
  | none => simp [after, write, verdict, fits_none]
  | some n => simp only [after, verdict, fits_some, write_sent n bytes t]

end Sink

namespace Writer

/-- The text that is written for a record as soon as it comes. -/
def rowText (format : Format) (mode : Mode) (r : Record) : Text :=
  match format with
  | .text | .ndjson => Report.ofRecords format mode [r]
  | .json => []

def rowsText (format : Format) (mode : Mode) (records : List Record) : Text :=
  records.flatMap (rowText format mode)

@[simp] theorem rowsText_json (mode : Mode) (records : List Record) :
    rowsText .json mode records = [] := by
  simp [rowsText, rowText]

/-- Outside JSON the report on records is what is written for them as they come. -/
theorem rowsText_eq_ofRecords {format : Format} (hformat : format ≠ .json) (mode : Mode)
    (records : List Record) :
    rowsText format mode records = Report.ofRecords format mode records := by
  induction records with
  | nil =>
      cases format with
      | json => exact absurd rfl hformat
      | text | ndjson => rfl
  | cons r records ih =>
      have hrow : rowText format mode r = Report.ofRecords format mode [r] := by
        cases format with
        | json => exact absurd rfl hformat
        | text | ndjson => rfl
      rw [rowsText, List.flatMap_cons, ← rowsText, ih, hrow]
      exact (Report.ofRows_append_of_ne_json hformat [r] records).symm

theorem encode_rowText_ne_nil {format : Format} (hformat : format ≠ .json) (mode : Mode)
    (r : Record) : Utf8.encode (rowText format mode r) ≠ [] := by
  cases format with
  | json => exact absurd rfl hformat
  | text =>
      rw [rowText, ← line_shown, Text.line, Utf8.encode_append]
      exact List.append_ne_nil_of_right_ne_nil _ (by decide)
  | ndjson =>
      rw [rowText, ← line_toJson, Text.line, Utf8.encode_append]
      exact List.append_ne_nil_of_right_ne_nil _ (by decide)

def heldBack (format : Format) (records : List Record) : List Record :=
  match format with
  | .json => records
  | .text | .ndjson => []

@[simp] theorem heldBack_nil (format : Format) : heldBack format [] = [] := by
  cases format <;> rfl

theorem heldBack_append (format : Format) (rs rs' : List Record) :
    heldBack format (rs ++ rs') = heldBack format rs ++ heldBack format rs' := by
  cases format <;> rfl

section

variable {limit : Option Nat} {bytes : List UInt8} {w : Writer}

theorem put_after (hsink : w.sink = .after limit bytes) (t : Text) :
    w.put t =
      ({ w with sink := .after limit (bytes ++ Utf8.encode t) },
        Sink.verdict limit bytes (Utf8.encode t)) := by
  simp only [put, hsink, Sink.write_after]

theorem record_eq_put (hformat : w.format ≠ .json) (r : Record) :
    w.record r = w.put (rowText w.format w.mode r) := by
  cases hf : w.format with
  | text => simp only [record, rowText, hf, line_shown]
  | ndjson => simp only [record, rowText, hf, line_toJson w.mode]
  | json => exact absurd hf hformat

/-- Records that are not held back reach the sink in a row. The first that does not fit ends the
row, and the sink is then as full as the whole row would have made it. -/
theorem records_after (hsink : w.sink = .after limit bytes) (hformat : w.format ≠ .json)
    (records : List Record) :
    w.records records =
      ({ w with
          sink := .after limit (bytes ++ Utf8.encode (rowsText w.format w.mode records)) },
        Sink.verdict limit bytes (Utf8.encode (rowsText w.format w.mode records))) := by
  induction records generalizing w bytes with
  | nil => simp [Writer.records, rowsText, Sink.verdict, ← hsink]
  | cons r rest ih =>
      have hrow := encode_rowText_ne_nil hformat w.mode r
      have hrows : Utf8.encode (rowsText w.format w.mode (r :: rest)) =
          Utf8.encode (rowText w.format w.mode r) ++
            Utf8.encode (rowsText w.format w.mode rest) := by
        rw [rowsText, List.flatMap_cons, Utf8.encode_append, ← rowsText]
      rw [Writer.records, record_eq_put hformat, put_after hsink, hrows]
      by_cases hfits : Sink.Fits limit (bytes ++ Utf8.encode (rowText w.format w.mode r))
      · have hverdict : Sink.verdict limit bytes (Utf8.encode (rowText w.format w.mode r) ++
            Utf8.encode (rowsText w.format w.mode rest)) =
              Sink.verdict limit (bytes ++ Utf8.encode (rowText w.format w.mode r))
                (Utf8.encode (rowsText w.format w.mode rest)) := by
          by_cases hrest : Utf8.encode (rowsText w.format w.mode rest) = []
          · simp [Sink.verdict, hrest, hfits]
          · simp [Sink.verdict, hrest]
        rw [hverdict, ← List.append_assoc, Sink.verdict, if_pos (Or.inr hfits)]
        exact ih rfl hformat
      · have hover : ¬ Sink.Fits limit (bytes ++ (Utf8.encode (rowText w.format w.mode r) ++
            Utf8.encode (rowsText w.format w.mode rest))) := by
          rw [← List.append_assoc]
          exact fun hall => hfits hall.of_append
        rw [Sink.verdict, Sink.verdict, if_neg (by simp [hrow, hfits]),
          if_neg (by simp [hrow, hover]), ← List.append_assoc,
          Sink.after_append_of_not_fits hfits]

theorem batch_after (hsink : w.sink = .after limit bytes) (records : List Record) :
    w.batch records =
      ({ w with
          held := w.held ++ heldBack w.format records
          sink := .after limit (bytes ++ Utf8.encode (rowsText w.format w.mode records)) },
        Sink.verdict limit bytes (Utf8.encode (rowsText w.format w.mode records))) := by
  cases hf : w.format with
  | json => simp [batch, hf, heldBack, Sink.verdict, ← hsink]
  | text | ndjson =>
      have hrow := records_after hsink (by simp [hf]) records
      simpa [batch, hf, heldBack] using hrow

end

/-! ### Sinks in which everything has fitted so far -/

section

variable {limit : Option Nat} {bytes : List UInt8} {w : Writer}
  (hsink : w.sink = .after limit bytes) (h : Sink.Fits limit bytes)

include hsink h

theorem put_of_fits (t : Text) :
    w.put t =
      ({ w with sink := .after limit (bytes ++ Utf8.encode t) },
        if Sink.Fits limit (bytes ++ Utf8.encode t) then .ok () else .error Sink.full) := by
  rw [put_after hsink, Sink.verdict_of_fits h]

theorem finish_of_fits :
    w.finish =
      ({ w with sink := .after limit (bytes ++ Utf8.encode w.closing) },
        if Sink.Fits limit (bytes ++ Utf8.encode w.closing) then .ok () else .error Sink.full) :=
  put_of_fits hsink h w.closing

theorem batch_of_fits (records : List Record) :
    w.batch records =
      ({ w with
          held := w.held ++ heldBack w.format records
          sink := .after limit (bytes ++ Utf8.encode (rowsText w.format w.mode records)) },
        if Sink.Fits limit (bytes ++ Utf8.encode (rowsText w.format w.mode records)) then .ok ()
        else .error Sink.full) := by
  rw [batch_after hsink, Sink.verdict_of_fits h]

end

end Writer
end QueryDigest
