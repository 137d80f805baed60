import QueryDigest.Record
import Std.Data.HashMap

/-!
Counting fingerprints. A tally keeps one bucket for each fingerprint, in the order in which the
fingerprints first came, and an index that finds a fingerprint's bucket at once.
-/

namespace QueryDigest

/-- A fingerprint, how often it came, and the statement it first came with. -/
structure Bucket where
  fingerprint : Text
  count : Nat
  sample : Text
  deriving DecidableEq, Repr

/-- The hash of a text, from the code points of its characters. -/
instance hashText : Hashable Text where
  hash t := t.foldl (fun h c => mixHash h c.val.toUInt64) 7

/-- The buckets so far, the slot of each fingerprint's bucket, and the number of additions. -/
structure Tally where
  slots : Std.HashMap Text Nat
  buckets : Array Bucket
  total : Nat

namespace Tally

def empty : Tally :=
  ⟨∅, #[], 0⟩

def add (t : Tally) (fingerprint statement : Text) : Tally :=
  match t.slots[fingerprint]? with
  | some slot =>
    { t with
      buckets := t.buckets.modify slot fun b => { b with count := b.count + 1 }
      total := t.total + 1 }
  | none =>
    { slots := t.slots.insert fingerprint t.buckets.size
      buckets := t.buckets.push ⟨fingerprint, 1, statement⟩
      total := t.total + 1 }

def addRecord (t : Tally) (r : Record) : Tally :=
  t.add r.fingerprint r.query

def size (t : Tally) : Nat :=
  t.buckets.size

def isEmpty (t : Tally) : Bool :=
  t.buckets.isEmpty

/-- The buckets from the most to the least frequent one, first comers first among equals. -/
def ranked (t : Tally) : List Bucket :=
  t.buckets.toList.mergeSort fun a b => b.count ≤ a.count

end Tally
end QueryDigest
