import QueryDigest.Log.Reader
import QueryDigest.Progress
import QueryDigest.Report.Writer

/-!
Running over the statements of a log. Statements are digested in batches; each batch is written
when it is full, or counted where only a summary is wanted. The first failure ends the run. The
places of a whole batch are reserved at the start, so that a run can have no batch beyond a size.
-/

namespace QueryDigest

structure Settings where
  threads : Nat
  batchSize : Nat := 1000
  format : Format := .text
  mode : Mode := .fingerprint
  progress : Bool := false
  deriving DecidableEq, Repr

namespace Settings

/-- The settings that apply where nothing else is asked for: a thread for each processor. -/
def standard (processors : Nat) : Settings :=
  { threads := max 1 processors }

/-- Checks that a run can have the settings; the thread count comes first. -/
def check (s : Settings) : Except SettingsFault Unit :=
  if s.threads = 0 then .error .noThreads
  else if s.batchSize = 0 then .error .emptyBatches
  else .ok ()

end Settings

namespace Batch

/-- The bytes that a batch takes for the place of a statement. -/
def placeSize : Nat := 24

/-- The largest batch. Its places lie side by side, and a signed word counts their bytes. -/
def largest : Nat :=
  9223372036854775807 / placeSize

/-- A batch of statements digested. The records stand in the order of the statements. -/
def digest (statements : List Text) : List Record :=
  statements.map Record.ofStatement

structure Work where
  writer : Writer
  tally : Tally
  processed : Nat
  reporter : Progress.Reporter
  events : Array Progress.Event

def Work.start (settings : Settings) (writer : Writer) : Work :=
  ⟨writer, .empty, 0, .start, if settings.progress then #[.started] else #[]⟩

def Work.note (settings : Settings) (w : Work) (event : Progress.Event) : Work :=
  if settings.progress then { w with events := w.events.push event } else w

/-- Digests a batch and writes its records, or counts them where a summary is wanted. -/
def Work.flush (settings : Settings) (w : Work) (batch : Array Text) :
    Work × Except Failure Unit :=
  let records := digest batch.toList
  match settings.mode with
  | .summary =>
    ({ w with
      tally := records.foldl Tally.addRecord w.tally
      processed := w.processed + records.length }, .ok ())
  | .fingerprint | .tables =>
    match w.writer.batch records with
    | (writer, .ok ()) => ({ w with writer, processed := w.processed + records.length }, .ok ())
    | (writer, .error failure) => ({ w with writer }, .error failure)

/-- Reports the statements done, at the time that the clock shows after so many statements. -/
def Work.report (settings : Settings) (clock : Nat → Nat) (w : Work) : Work :=
  let (reporter, event) := w.reporter.report (clock w.processed) w.processed
  let w := { w with reporter }
  match event with
  | some event => w.note settings event
  | none => w

/-- Works through items, the statements in `batch` being those not digested yet. -/
def Work.through (settings : Settings) (clock : Nat → Nat) (w : Work) (batch : Array Text) :
    List Log.Item → Work × Except Failure Unit
  | [] => if batch.isEmpty then (w, .ok ()) else w.flush settings batch
  | .failure reason :: _ => (w.note settings (.failed reason), .error (.io reason))
  | .statement statement :: rest =>
    let batch := batch.push statement
    if batch.size = settings.batchSize then
      match w.flush settings batch with
      | (w, .ok ()) => (w.report settings clock).through settings clock #[] rest
      | (w, .error failure) => (w, .error failure)
    else w.through settings clock batch rest

structure Outcome where
  writer : Writer
  events : List Progress.Event
  log : List Text
  result : Except Failure Nat

def readyLine (s : Settings) : Text :=
  "Distiller ready: ".toList ++ Decimal.render s.threads ++ " threads, batch size ".toList
    ++ Decimal.render s.batchSize

def summaryLine (t : Tally) : Text :=
  if t.isEmpty then "No statements to summarize".toList
  else "Summarized ".toList ++ Decimal.render t.total ++ " statements into ".toList
    ++ Decimal.render t.size ++ " fingerprints".toList

/-- What is left of a run whose items have been worked through, as far as they were. -/
def conclude (settings : Settings) : Work × Except Failure Unit → Outcome
  | (w, .error failure) => ⟨w.writer, w.events.toList, [], .error failure⟩
  | (w, .ok ()) =>
    match settings.mode with
    | .summary =>
      let log := [summaryLine w.tally]
      match w.writer.summary w.tally.ranked with
      | (writer, .error failure) => ⟨writer, w.events.toList, log, .error failure⟩
      | (writer, .ok ()) =>
        let w := w.note settings (.completed w.processed (some w.tally.size))
        ⟨writer, w.events.toList, log, .ok w.processed⟩
    | .fingerprint | .tables =>
      let w := w.note settings (.completed w.processed none)
      ⟨w.writer, w.events.toList, [], .ok w.processed⟩

/--
Runs over items and writes their report, except for what ends it. A batch that cannot be reserved
ends the run before the first item is looked at.
-/
def process (settings : Settings) (clock : Nat → Nat) (writer : Writer)
    (items : List Log.Item) : Outcome :=
  let start := Work.start settings writer
  if largest < settings.batchSize then conclude settings (start, .error .noRoom)
  else conclude settings (start.through settings clock #[] items)

/-- A whole run: the check of the settings, the items, and the end of the report. -/
def run (settings : Settings) (clock : Nat → Nat) (writer : Writer) (items : List Log.Item) :
    Outcome :=
  match settings.check with
  | .error fault => ⟨writer, [], [], .error (.settings fault)⟩
  | .ok () =>
    let outcome := process settings clock writer items
    let outcome := { outcome with log := readyLine settings :: outcome.log }
    match outcome.result with
    | .error _ => outcome
    | .ok processed =>
      let (writer, result) := outcome.writer.finish
      { outcome with writer, result := result.map fun _ => processed }

end Batch
end QueryDigest
