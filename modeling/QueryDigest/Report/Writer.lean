import QueryDigest.Report.Encoding
import QueryDigest.Report.Format
import QueryDigest.Report.Sink

/-!
Writing reports. Lines are written as records come; a JSON array is written when the report is
finished, and holds the records back until then.
-/

namespace QueryDigest

/-- A report being written, with the records held back. -/
structure Writer where
  format : Format
  mode : Mode
  held : Array Record
  sink : Sink

namespace Writer

def start (format : Format) (mode : Mode) (sink : Sink) : Writer :=
  ⟨format, mode, #[], sink⟩

def put (w : Writer) (t : Text) : Writer × Except Failure Unit :=
  let (sink, result) := w.sink.write t
  ({ w with sink }, result)

/-- What a line of text shows of a record. -/
def shown (mode : Mode) (r : Record) : Text :=
  match mode with
  | .tables => Text.join [','] r.tables
  | .fingerprint | .summary => r.fingerprint

/-- Writes a record, or holds it back. -/
def record (w : Writer) (r : Record) : Writer × Except Failure Unit :=
  match w.format with
  | .text => w.put (Text.line (shown w.mode r))
  | .ndjson => w.put (Text.line r.toJson.compact)
  | .json => ({ w with held := w.held.push r }, .ok ())

/-- Writes records one by one, up to the first that fails. -/
def records (w : Writer) : List Record → Writer × Except Failure Unit
  | [] => (w, .ok ())
  | r :: rest =>
    match w.record r with
    | (w, .ok ()) => w.records rest
    | (w, .error failure) => (w, .error failure)

/-- Writes a batch of records, or holds it back at once. -/
def batch (w : Writer) (rs : List Record) : Writer × Except Failure Unit :=
  match w.format with
  | .json => ({ w with held := w.held ++ rs }, .ok ())
  | .text | .ndjson => w.records rs

def counted (b : Bucket) : Text :=
  Decimal.render b.count ++ '\t' :: b.fingerprint

def summaryText (format : Format) (buckets : List Bucket) : Text :=
  match format with
  | .text => buckets.flatMap fun b => Text.line (counted b)
  | .ndjson => buckets.flatMap fun b => Text.line b.toJson.compact
  | .json => Text.line ((Json.Value.array (buckets.map Bucket.toJson)).pretty 0)

def summary (w : Writer) (buckets : List Bucket) : Writer × Except Failure Unit :=
  w.put (summaryText w.format buckets)

/-- What is written at the end of a report: the records held back, unless it is a summary. -/
def closing (w : Writer) : Text :=
  if w.format = .json ∧ w.mode ≠ .summary then
    Text.line ((Json.Value.array (w.held.toList.map Record.toJson)).pretty 0)
  else []

def finish (w : Writer) : Writer × Except Failure Unit :=
  w.put w.closing

end Writer
end QueryDigest
