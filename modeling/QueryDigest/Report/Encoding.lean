import QueryDigest.Json.Printer
import QueryDigest.Json.Reader
import QueryDigest.Tally

/-!
Records and buckets as JSON objects, written with their fields in a fixed order and read back.
-/

namespace QueryDigest

namespace Record

def toJson (r : Record) : Json.Value :=
  .object [("query".toList, .string r.query), ("fingerprint".toList, .string r.fingerprint),
    ("tables".toList, .array (r.tables.map .string))]

def schema : Json.Schema :=
  [("query".toList, .text), ("fingerprint".toList, .text), ("tables".toList, .texts)]

def parse (t : Text) : Except Json.Fault Record := do
  match ← Json.parseRow schema t with
  | [.text query, .text fingerprint, .texts tables] => return ⟨query, fingerprint, tables⟩
  | _ => .error .mismatch

end Record

namespace Bucket

def toJson (b : Bucket) : Json.Value :=
  .object [("fingerprint".toList, .string b.fingerprint), ("count".toList, .number b.count),
    ("sample".toList, .string b.sample)]

def schema : Json.Schema :=
  [("fingerprint".toList, .text), ("count".toList, .count), ("sample".toList, .text)]

def parse (t : Text) : Except Json.Fault Bucket := do
  match ← Json.parseRow schema t with
  | [.text fingerprint, .count count, .text sample] => return ⟨fingerprint, count, sample⟩
  | _ => .error .mismatch

end Bucket
end QueryDigest
