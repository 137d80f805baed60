import QueryDigest.CommandLine.Arguments
import QueryDigest.CommandLine.Path

/-!
Running the command line. What a run needs of the machine is a small interface, so that the same
run works on real files and on files held in memory.
-/

namespace QueryDigest.CommandLine

structure Refusal where
  reason : Text
  number : Nat
  deriving DecidableEq, Repr

def Refusal.message (r : Refusal) : Text :=
  r.reason ++ " (os error ".toList ++ Decimal.render r.number ++ [')']

def Refusal.missingNumber : Nat := 2

/-- What a run needs of the machine. -/
structure Machine (m : Type → Type) where
  processors : Nat
  /-- Makes a folder in one that is there. -/
  createFolder (path : Text) : m (Except Refusal Unit)
  hasFolder (path : Text) : m Bool
  openFile (path : Text) : m (Except Refusal (List Log.Chunk))
  /-- Opens a file to write at its end. It is made if it is not there. -/
  appendFile (path : Text) : m (Except Refusal Unit)
  input : m (List Log.Chunk)
  /-- The time since the start in milliseconds, when a number of some statements has been done. -/
  clock (statements : List Text) : m (Nat → Nat)
  /-- The day, written as `2024-05-01`. -/
  today : m Text

/--
Makes a folder unless it is there. Where the folder above it is missing too, that one is made
first, and so on through `above`; what has nothing above it, the root or where we are, is there.
-/
def Machine.makeFolder {m : Type → Type} [Monad m] (machine : Machine m) (path : Text) :
    (above : List Text) → m (Except Refusal Unit)
  | [] => return .ok ()
  | parent :: above => do
    match ← machine.createFolder path with
    | .ok () => return .ok ()
    | .error refusal =>
      if refusal.number = Refusal.missingNumber then
        match ← machine.makeFolder parent above with
        | .error refusal => return .error refusal
        | .ok () =>
          match ← machine.createFolder path with
          | .ok () => return .ok ()
          | .error refusal =>
            if ← machine.hasFolder path then return .ok () else return .error refusal
      else if ← machine.hasFolder path then return .ok ()
      else return .error refusal

/-- What a run leaves: its exit code, what it has printed, and what it has said about itself. -/
structure Result where
  exitCode : Nat
  output : List UInt8
  events : List Progress.Event
  report : Text

namespace Result

def printing (t : Text) : Result :=
  ⟨0, Utf8.encode t, [], []⟩

def failing (report : Text) : Result :=
  ⟨1, [], [], report⟩

/-- The exit code of a run that is given up because it cannot have what it cannot do without. -/
def abandonedCode : Nat := 101

def abandoning (report : Text) : Result :=
  ⟨abandonedCode, [], [], report⟩

def refusing : Result :=
  ⟨2, [], [], Text.line "The arguments are not understood; --help lists the options.".toList⟩

end Result

/-- The report of an error with its cause on a line of its own. -/
def report (message : Text) (cause : Option Text) : Text :=
  Text.line ("Error: ".toList ++ message ++
    match cause with
    | some c => "\n\nCaused by:\n    ".toList ++ c
    | none => [])

def versionText : Text :=
  Text.line "mysql-distill 0.3.0".toList

def helpText : Text :=
  ["Groups the statements of a query log by their shape.",
    "",
    "Usage: mysql-distill [OPTIONS]",
    "",
    "Options:",
    "  -q, --query <QUERY>            Digest this statement",
    "  -f, --file <FILE>              Read statements from a file instead of standard input",
    "      --format <FORMAT>          Write text, json or ndjson [default: text]",
    "      --tables                   Show the tables of each statement",
    "      --summary                  Count the statements of each fingerprint",
    "  -t, --threads <THREADS>        Number of threads [default: one for each processor]",
    "      --batch-size <BATCH_SIZE>  Statements in a batch [default: 1000]",
    "      --progress                 Report progress",
    "      --log-dir <LOG_DIR>        Folder for log files",
    "  -h, --help                     Show this text",
    "  -V, --version                  Show the version"].flatMap fun l => Text.line l.toList

/-- The exit code of a run that fails. One that has no room for a batch is given up. -/
def exitCodeOf : Failure → Nat
  | .noRoom => Result.abandonedCode
  | .io _ | .settings _ => 1

def runOver (settings : Settings) (clock : Nat → Nat) (items : List Log.Item) : Result :=
  let outcome :=
    Batch.run settings clock (.start settings.format settings.mode (.empty none)) items
  let output := outcome.writer.sink.taken.toList
  match outcome.result with
  | .ok _ => ⟨0, output, outcome.events, []⟩
  | .error failure =>
    ⟨exitCodeOf failure, output, outcome.events, report failure.message failure.cause?⟩

/-- The statements in front of the first failure. -/
def statementsOf : List Log.Item → List Text
  | .statement q :: rest => q :: statementsOf rest
  | .failure _ :: _ | [] => []

/-- The clock of a run. Where no progress is reported nobody looks at it, so no time is taken. -/
def clockOf {m : Type → Type} [Monad m] (machine : Machine m) (settings : Settings)
    (items : List Log.Item) : m (Nat → Nat) :=
  if settings.progress then machine.clock (statementsOf items) else return fun _ => 0

/-- The items of the source that was asked for: a statement taken as it is, a file, or the input. -/
def source {m : Type → Type} [Monad m] (machine : Machine m) (g : Given) :
    m (Except Text (List Log.Item)) := do
  match g.query, g.file with
  | some query, _ => return .ok [.statement query]
  | none, some path =>
    match ← machine.openFile path with
    | .ok chunks => return .ok (Log.items chunks)
    | .error refusal =>
      return .error (report ("Failed to open ".toList ++ path) (some refusal.message))
  | none, none => return .ok (Log.items (← machine.input))

def logName (day : Text) : Text :=
  "mysql-distill.log.".toList ++ day

/--
Opens the log file of the day in a folder, which is made if it is not there. The log says nothing
of a run that goes well, so the file stays as it is. What is left of a run without it is returned.
-/
def openLog {m : Type → Type} [Monad m] (machine : Machine m) (folder : Text) :
    m (Option Result) := do
  match ← machine.makeFolder folder (Path.above folder) with
  | .error refusal =>
    return some (.failing (report ("Failed to create log directory ".toList ++ folder)
      (some refusal.message)))
  | .ok () =>
    match ← machine.appendFile (Path.below folder (logName (← machine.today))) with
    | .error refusal =>
      return some (.abandoning (report "Failed to open the log file".toList
        (some refusal.message)))
    | .ok () => return none

/--
A run with the options given. The log is opened first, then the settings are checked, and only then
is the source opened.
-/
def runGiven {m : Type → Type} [Monad m] (machine : Machine m) (g : Given) : m Result := do
  let abandoned ← match g.logFolder with
    | some folder => openLog machine folder
    | none => pure none
  match abandoned with
  | some result => return result
  | none =>
    let settings := g.settings machine.processors
    match settings.check with
    | .error fault => return .failing (report (Failure.settings fault).message none)
    | .ok () =>
      match ← source machine g with
      | .error problem => return .failing problem
      | .ok items => return runOver settings (← clockOf machine settings items) items

/-- A run of the command line. Arguments that are refused have an exit code of their own. -/
def run {m : Type → Type} [Monad m] (machine : Machine m) (arguments : List Text) : m Result :=
  match parse arguments with
  | .run g => runGiven machine g
  | .version => return .printing versionText
  | .help => return .printing helpText
  | .refused => return .refusing

/-- What a run says about itself, when it has taken a number of milliseconds. -/
def Result.diagnostics (r : Result) (elapsed : Nat) : Text :=
  r.events.flatMap (fun e => Text.line (e.line elapsed)) ++ r.report

end QueryDigest.CommandLine
