import QueryDigest.Text.Decimal

/-!
Reports on the progress of a run. Reports of statements done come at most twice a second; the start,
the end and a failure are always reported.
-/

namespace QueryDigest.Progress

inductive Event where
  | started
  /-- So many statements are done, so many milliseconds after the start. -/
  | advanced (processed now : Nat)
  | completed (total : Nat) (fingerprints : Option Nat)
  | failed (reason : Text)
  deriving DecidableEq, Repr

/-- The least time between two reports of statements done, in milliseconds. -/
def interval : Nat := 500

structure Reporter where
  last : Option Nat

def Reporter.start : Reporter :=
  ⟨none⟩

/-- Reports the statements done by a time, unless the last such report is too recent. -/
def Reporter.report (r : Reporter) (now processed : Nat) : Reporter × Option Event :=
  match r.last with
  | some last =>
    if now - last < interval then (r, none) else (⟨some now⟩, some (.advanced processed now))
  | none => (⟨some now⟩, some (.advanced processed now))

def hundredths (n : Nat) : Text :=
  Decimal.render (n / 100) ++ ['.', Decimal.digit (n / 10), Decimal.digit n]

/-- An event as it is reported in a run that has taken some milliseconds as a whole. -/
def Event.line (elapsed : Nat) : Event → Text
  | .started => "🚀 Distilling statements...".toList
  | .advanced processed now =>
    let rate := if now = 0 then 0 else (processed * 1000 + now / 2) / now
    "⚡ Progress: ".toList ++ Decimal.render processed ++ " statements - ".toList
      ++ Decimal.render rate ++ " statements/sec".toList
  | .completed total fingerprints =>
    "✅ Distill complete: ".toList ++ Decimal.render total ++ " statements".toList
      ++ (match fingerprints with
        | some n => " into ".toList ++ Decimal.render n ++ " fingerprints".toList
        | none => [])
      ++ " in ".toList ++ hundredths ((elapsed + 5) / 10) ++ "s".toList
  | .failed reason => "❌ Error: ".toList ++ reason

end QueryDigest.Progress
