import QueryDigest.Batch

/-!
The arguments of the command line. Options have a long name and some a short one; a value may be
attached to its option or follow it. Nothing may be given twice, and an argument that starts with
a dash is never the value of the option before it.
-/

namespace QueryDigest.CommandLine

inductive Switch where
  | tables
  | summary
  | progress
  deriving DecidableEq, Repr

inductive Choice where
  | query
  | file
  | format
  | threads
  | batchSize
  | logFolder
  deriving DecidableEq, Repr

inductive Meaning where
  | switch (s : Switch)
  | choice (c : Choice)
  | version
  | help
  deriving DecidableEq, Repr

def longNames : List (Text × Meaning) :=
  [("query".toList, .choice .query), ("file".toList, .choice .file),
    ("format".toList, .choice .format), ("tables".toList, .switch .tables),
    ("summary".toList, .switch .summary), ("threads".toList, .choice .threads),
    ("batch-size".toList, .choice .batchSize), ("progress".toList, .switch .progress),
    ("log-dir".toList, .choice .logFolder), ("version".toList, .version), ("help".toList, .help)]

def shortNames : List (Char × Meaning) :=
  [('q', .choice .query), ('f', .choice .file), ('t', .choice .threads), ('V', .version),
    ('h', .help)]

structure Given where
  query : Option Text := none
  file : Option Text := none
  format : Option Format := none
  tables : Bool := false
  summary : Bool := false
  threads : Option Nat := none
  batchSize : Option Nat := none
  progress : Bool := false
  logFolder : Option Text := none
  deriving DecidableEq, Repr

namespace Given

/-- Takes a switch, if it is the first one of its kind. -/
def turnOn (g : Given) : Switch → Option Given
  | .tables => if g.tables then none else some { g with tables := true }
  | .summary => if g.summary then none else some { g with summary := true }
  | .progress => if g.progress then none else some { g with progress := true }

/-- The first value of an option, where `old` is what has been given before. -/
def first {α : Type} (old : Option α) (value : Option α) : Option (Option α) :=
  match old, value with
  | none, some v => some (some v)
  | _, _ => none

def path? (t : Text) : Option Text :=
  if t.isEmpty then none else some t

/-- A natural number of 64 bits, perhaps with a plus sign. -/
def natural? (t : Text) : Option Nat :=
  match t with
  | '+' :: rest => Decimal.readWord? rest
  | t => Decimal.readWord? t

/-- Takes the value of an option, if it is the first one and the option can have it. -/
def choose (g : Given) (c : Choice) (t : Text) : Option Given :=
  match c with
  | .query => (first g.query (some t)).map fun query => { g with query }
  | .file => (first g.file (path? t)).map fun file => { g with file }
  | .format => (first g.format (Format.ofName? t)).map fun format => { g with format }
  | .threads => (first g.threads (natural? t)).map fun threads => { g with threads }
  | .batchSize => (first g.batchSize (natural? t)).map fun batchSize => { g with batchSize }
  | .logFolder => (first g.logFolder (path? t)).map fun logFolder => { g with logFolder }

def conflicting (g : Given) : Bool :=
  (g.query.isSome && g.file.isSome) || (g.tables && g.summary)

def settings (processors : Nat) (g : Given) : Settings :=
  let standard := Settings.standard processors
  { threads := g.threads.getD standard.threads
    batchSize := g.batchSize.getD standard.batchSize
    format := g.format.getD standard.format
    mode := if g.summary then .summary else if g.tables then .tables else standard.mode
    progress := g.progress }

end Given

inductive Request where
  | run (given : Given)
  | version
  | help
  | refused
  deriving DecidableEq, Repr

inductive Argument where
  | switch (s : Switch)
  /-- An option with a value, and the value if it is attached to the name. -/
  | choice (c : Choice) (attached : Option Text)
  | version
  | help
  | endOfOptions
  /-- No option, but perhaps the value of one. -/
  | plain
  | unknown
  deriving DecidableEq, Repr

namespace Argument

/-- A long name and what is attached to it. Only an option with a value may have one attached. -/
def ofLong (name : Text) (attached : Option Text) : Argument :=
  match longNames.lookup name, attached with
  | some (.choice c), attached => .choice c attached
  | some (.switch s), none => .switch s
  | some .version, none => .version
  | some .help, none => .help
  | _, _ => .unknown

/-- The value attached to a short name; an equals sign in between is dropped. -/
def shortValue : Text → Option Text
  | [] => none
  | '=' :: value => some value
  | value => some value

def ofShort (name : Char) (attached : Text) : Argument :=
  match shortNames.lookup name with
  | some (.choice c) => .choice c (shortValue attached)
  | some (.switch s) => if attached.isEmpty then .switch s else .unknown
  | some .version => .version
  | some .help => .help
  | none => .unknown

/-- Reads an argument. A dash alone is no option. -/
def ofText : Text → Argument
  | ['-', '-'] => .endOfOptions
  | '-' :: '-' :: rest =>
    match rest.dropWhile (· != '=') with
    | [] => ofLong rest none
    | _ :: value => ofLong (rest.takeWhile (· != '=')) (some value)
  | '-' :: name :: attached => ofShort name attached
  | _ => .plain

end Argument

def settle (g : Given) : Request :=
  if g.conflicting then .refused else .run g

/--
Reads arguments from left to right. A request for the version or for help is answered at once, if
nothing before it is wrong.
-/
def parseFrom (g : Given) : List Text → Request
  | [] => settle g
  | argument :: rest =>
    match Argument.ofText argument with
    | .version => .version
    | .help => .help
    | .endOfOptions => if rest.isEmpty then settle g else .refused
    | .plain | .unknown => .refused
    | .switch s =>
      match g.turnOn s with
      | some g => parseFrom g rest
      | none => .refused
    | .choice c (some value) =>
      match g.choose c value with
      | some g => parseFrom g rest
      | none => .refused
    | .choice c none =>
      match rest with
      | [] => .refused
      | value :: rest =>
        if Argument.ofText value = .plain then
          match g.choose c value with
          | some g => parseFrom g rest
          | none => .refused
        else .refused

def parse (arguments : List Text) : Request :=
  parseFrom {} arguments

end QueryDigest.CommandLine
