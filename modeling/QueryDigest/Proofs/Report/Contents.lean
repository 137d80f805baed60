import QueryDigest.Report.Writer

/-!
What a report consists of, said without a writer: lines of text, JSON objects on lines, or one JSON
array. Records and buckets differ in the line and the object that stand for them, and in nothing
else. The texts that a writer makes of them are these.
-/

namespace QueryDigest

namespace Report

/-- Lines in a row, with a line feed behind each. -/
def unlines (lines : List Text) : Text :=
  lines.flatMap fun line => line ++ ['\n']

/-- The report on some rows, each of which has a line of text and a JSON object. -/
def ofRows {α : Type} (line : α → Text) (object : α → Json.Value) (format : Format)
    (rows : List α) : Text :=
  match format with
  | .text => unlines (rows.map line)
  | .ndjson => unlines (rows.map fun row => (object row).compact)
  | .json => (Json.Value.array (rows.map object)).pretty 0 ++ ['\n']

/-- The line of a record: its fingerprint, or its tables with commas between them. -/
def recordLine (mode : Mode) (r : Record) : Text :=
  match mode with
  | .tables => List.intercalate [','] r.tables
  | .fingerprint | .summary => r.fingerprint

def recordObject (r : Record) : Json.Value :=
  .object [("query".toList, .string r.query), ("fingerprint".toList, .string r.fingerprint),
    ("tables".toList, .array (r.tables.map .string))]

/-- The line of a bucket: its count, a tab and its fingerprint. -/
def bucketLine (b : Bucket) : Text :=
  Nat.toDigits 10 b.count ++ '\t' :: b.fingerprint

def bucketObject (b : Bucket) : Json.Value :=
  .object [("fingerprint".toList, .string b.fingerprint), ("count".toList, .number b.count),
    ("sample".toList, .string b.sample)]

def ofRecords (format : Format) (mode : Mode) (records : List Record) : Text :=
  ofRows (recordLine mode) recordObject format records

def ofBuckets (format : Format) (buckets : List Bucket) : Text :=
  ofRows bucketLine bucketObject format buckets

theorem ofRows_append_of_ne_json {α : Type} {line : α → Text} {object : α → Json.Value}
    {format : Format} (hformat : format ≠ .json) (rows rows' : List α) :
    ofRows line object format (rows ++ rows') =
      ofRows line object format rows ++ ofRows line object format rows' := by
  cases format with
  | json => exact absurd rfl hformat
  | text | ndjson => simp [ofRows, unlines]

end Report

theorem Decimal.digit_eq_digitChar {n : Nat} (h : n < 10) : digit n = n.digitChar :=
  (by decide : ∀ n < 10, digit n = n.digitChar) n h

theorem Decimal.render_eq_toDigits (n : Nat) : render n = Nat.toDigits 10 n := by
  induction n using Nat.strongRecOn with
  | _ n ih =>
      rw [render, Nat.toDigits_eq_if (by decide)]
      split
      · rename_i hdigit
        rw [digit_eq_digitChar hdigit]
      · rename_i hmore
        have hlast : digit n = (n % 10).digitChar := by
          rw [← digit_eq_digitChar (Nat.mod_lt n (by decide)), digit, digit, Nat.mod_mod]
        rw [ih (n / 10) (by omega), hlast]

namespace Writer

theorem line_shown (mode : Mode) (r : Record) :
    Text.line (shown mode r) = Report.ofRecords .text mode [r] :=
  (List.flatMap_singleton ..).symm

theorem line_toJson (mode : Mode) (r : Record) :
    Text.line r.toJson.compact = Report.ofRecords .ndjson mode [r] :=
  (List.flatMap_singleton ..).symm

theorem line_pretty (mode : Mode) (records : List Record) :
    Text.line ((Json.Value.array (records.map Record.toJson)).pretty 0) =
      Report.ofRecords .json mode records :=
  rfl

theorem counted_eq_bucketLine (b : Bucket) : counted b = Report.bucketLine b := by
  rw [counted, Decimal.render_eq_toDigits, Report.bucketLine]

theorem summaryText_eq_ofBuckets (format : Format) (buckets : List Bucket) :
    summaryText format buckets = Report.ofBuckets format buckets := by
  cases format with
  | text =>
      have hlines : (fun b => Text.line (counted b)) = fun b => Report.bucketLine b ++ ['\n'] :=
        funext fun b => congrArg Text.line (counted_eq_bucketLine b)
      simp [summaryText, Report.ofBuckets, Report.ofRows, Report.unlines, List.flatMap_map, hlines]
  | ndjson => exact (List.flatMap_map ..).symm
  | json => rfl

end Writer
end QueryDigest
