import QueryDigest.Proofs.Json.Rows
import QueryDigest.Proofs.Report.Calls
import QueryDigest.Proofs.Text.Utf8

/-!
Reports of one JSON object on each line are read back. Records and buckets are rows of fields with
distinct names, so each line gives the row it was written for, and no line feed stands inside one.
-/

namespace QueryDigest

open Text (OneLine)

/-! ### Records and buckets as rows -/

namespace Record

def row (r : Record) : Json.Row :=
  [("query".toList, .text r.query), ("fingerprint".toList, .text r.fingerprint),
    ("tables".toList, .texts r.tables)]

theorem nodup_names (r : Record) : (r.row.map Prod.fst).Nodup :=
  (by decide : ["query".toList, "fingerprint".toList, "tables".toList].Nodup)

theorem parse_compact (r : Record) : parse r.toJson.compact = .ok r := by
  have hparse : Json.parseRow schema r.toJson.compact = .ok (r.row.map Prod.snd) :=
    Json.parseRow_compact r.nodup_names (by simp [row, Json.Field.Readable])
  rw [parse, hparse]
  rfl

end Record

namespace Bucket

def row (b : Bucket) : Json.Row :=
  [("fingerprint".toList, .text b.fingerprint), ("count".toList, .count b.count),
    ("sample".toList, .text b.sample)]

theorem nodup_names (b : Bucket) : (b.row.map Prod.fst).Nodup :=
  (by decide : ["fingerprint".toList, "count".toList, "sample".toList].Nodup)

theorem parse_compact {b : Bucket} (h : b.count ≤ Decimal.maxWord) :
    parse b.toJson.compact = .ok b := by
  have hparse : Json.parseRow schema b.toJson.compact = .ok (b.row.map Prod.snd) :=
    Json.parseRow_compact b.nodup_names (by simp [row, Json.Field.Readable, h])
  rw [parse, hparse]
  rfl

end Bucket

/-! ### Reports -/

/-- Each row stands on a line of its own, and reading the line gives the row. -/
def ReadsBack {α : Type} (parse : Text → Except Json.Fault α) (rows : List α) (t : Text) : Prop :=
  t.count '\n' = rows.length ∧
    ∃ lines, t.splitOn '\n' = lines ++ [[]] ∧ lines.map parse = rows.map .ok

theorem readsBack_lines {α : Type} {parse : Text → Except Json.Fault α} {rows : List α}
    {render : α → Text} (hline : ∀ row ∈ rows, OneLine (render row))
    (hparse : ∀ row ∈ rows, parse (render row) = .ok row) :
    ReadsBack parse rows (rows.flatMap fun row => Text.line (render row)) := by
  have hlines : ∀ t ∈ rows.map render, OneLine t := by simpa using hline
  rw [← List.flatMap_map]
  refine ⟨(Text.count_lines hlines).trans (List.length_map render), rows.map render,
    Text.splitOn_lines hlines, ?_⟩
  rw [List.map_map]
  exact List.map_congr_left hparse

namespace Writer

theorem flatten_written (format : Format) (mode : Mode) (cs : List Call) :
    (written format mode cs).flatten =
      Utf8.encode (cs.flatMap (Call.text format mode) ++
        lastText format mode (cs.flatMap Call.records)) := by
  have hcalls : Utf8.encode (cs.flatMap (Call.text format mode)) =
      (cs.map fun c => Utf8.encode (c.text format mode)).flatten := by
    rw [Utf8.encode, List.flatMap_assoc, List.flatMap_def]
    rfl
  simp [written, Utf8.encode_append, hcalls, Function.comp_def]

/-- What a session without a limit has written. -/
theorem text_session (format : Format) (mode : Mode) (cs : List Call) :
    ((start format mode (.empty none)).session cs).1.sink.text =
      cs.flatMap (Call.text format mode) ++ lastText format mode (cs.flatMap Call.records) := by
  rw [session_start]
  simp only [Sink.text, Sink.taken_after_none]
  rw [flatten_written, Utf8.decode_encode]

theorem ok_of_mem_session {format : Format} {mode : Mode} {cs : List Call}
    {result : Except Failure Unit}
    (h : result ∈ ((start format mode (.empty none)).session cs).2) : result = .ok () := by
  rw [session_start] at h
  exact ok_of_mem_verdicts h

theorem Call.text_ndjson {c : Call} (h : ∀ buckets, c ≠ .summary buckets) (mode : Mode) :
    c.text .ndjson mode = c.records.flatMap fun r => Text.line r.toJson.compact := by
  have hrows (records : List Record) : rowsText .ndjson mode records =
      records.flatMap fun r => Text.line r.toJson.compact := by
    simp only [rowsText, line_toJson mode]
    rfl
  cases c with
  | record r => exact (List.flatMap_singleton ..).symm.trans (hrows [r])
  | batch records => exact hrows records
  | summary buckets => exact absurd rfl (h buckets)

theorem lastText_ndjson (mode : Mode) (records : List Record) :
    lastText .ndjson mode records = [] := by
  cases mode <;> rfl

/-- Whatever is written on lines of JSON is read back: the records of all calls in order, and the
buckets of a summary with counts of 64 bits. -/
theorem ndjson_reads_back (mode : Mode) :
    (∀ cs : List Call, (∀ c ∈ cs, ∀ buckets, c ≠ .summary buckets) →
      let outcome := (start .ndjson mode (.empty none)).session cs
      (∀ result ∈ outcome.2, result = .ok ()) ∧
        ReadsBack Record.parse (cs.flatMap Call.records) outcome.1.sink.text) ∧
    ∀ buckets : List Bucket, (∀ b ∈ buckets, b.count ≤ Decimal.maxWord) →
      let outcome := (start .ndjson mode (.empty none)).session [.summary buckets]
      (∀ result ∈ outcome.2, result = .ok ()) ∧
        ReadsBack Bucket.parse buckets outcome.1.sink.text := by
  refine ⟨fun cs hcs => ⟨fun _ => ok_of_mem_session, ?_⟩,
    fun buckets hbuckets => ⟨fun _ => ok_of_mem_session, ?_⟩⟩
  · have htext : cs.flatMap (Call.text .ndjson mode) =
        (cs.flatMap Call.records).flatMap fun r => Text.line r.toJson.compact := by
      rw [List.flatMap_assoc, List.flatMap_def, List.flatMap_def,
        List.map_congr_left fun c hc => Call.text_ndjson (hcs c hc) mode]
    rw [text_session, htext, lastText_ndjson, List.append_nil]
    exact readsBack_lines (fun r _ => r.toJson.oneLine_compact) fun r _ => r.parse_compact
  · have htext : [Call.summary buckets].flatMap (Call.text .ndjson mode) =
        buckets.flatMap fun b => Text.line b.toJson.compact :=
      (List.flatMap_singleton ..).trans (summaryText_eq_ofBuckets .ndjson buckets).symm
    rw [text_session, htext, lastText_ndjson, List.append_nil]
    exact readsBack_lines (fun b _ => b.toJson.oneLine_compact) fun b hb =>
      Bucket.parse_compact (hbuckets b hb)


/-- A record with a line feed, a quote and a control character, and a bucket with the largest
count. -/
theorem ndjson_reads_back_escapes :
    let r : Record := ⟨"select \"\n\x01\\".toList, "SELECT".toList, ["é".toList, []]⟩
    let b : Bucket := ⟨"SELECT".toList, 18446744073709551615, "\t".toList⟩
    let session (c : Call) := (start .ndjson .summary (.empty none)).session [c]
    ((∀ c ∈ [Call.record r], ∀ buckets, c ≠ .summary buckets) ∧
      ReadsBack Record.parse [r] (session (.record r)).1.sink.text) ∧
    (∀ b' ∈ [b], b'.count ≤ Decimal.maxWord) ∧
      ReadsBack Bucket.parse [b] (session (.summary [b])).1.sink.text := by
  intro r b session
  have hrecords : ∀ c ∈ [Call.record r], ∀ buckets, c ≠ .summary buckets := by simp
  have hcounts : ∀ b' ∈ [b], b'.count ≤ Decimal.maxWord := by decide +kernel
  obtain ⟨hrecord, hsummary⟩ := ndjson_reads_back .summary
  exact ⟨⟨hrecords, (hrecord _ hrecords).2⟩, hcounts, (hsummary _ hcounts).2⟩

end Writer
end QueryDigest
