import QueryDigest.CommandLine.Run
import Std.Async.System
import Std.Time.Format

/-!
The program: the command line on the real machine.
-/

namespace QueryDigest.Program

open CommandLine

/-- How much of a file is read at a time, in bytes. -/
def chunkSize : USize := 8192

def refusalOf (e : IO.Error) : Refusal :=
  match e with
  | .alreadyExists _ number reason | .noFileOrDirectory _ number reason
  | .permissionDenied _ number reason | .inappropriateType _ number reason
  | .resourceExhausted _ number reason | .invalidArgument _ number reason =>
    ⟨reason.toList, number.toNat⟩
  | .otherError number reason | .resourceBusy number reason | .resourceVanished number reason
  | .unsupportedOperation number reason | .hardwareFault number reason
  | .unsatisfiedConstraints number reason | .illegalOperation number reason
  | .protocolError number reason | .timeExpired number reason =>
    ⟨reason.toList, number.toNat⟩
  | .interrupted _ number reason => ⟨reason.toList, number.toNat⟩
  | .noSuchThing _ number reason => ⟨reason.toList, number.toNat⟩
  | .unexpectedEof => ⟨"unexpected end of file".toList, 0⟩
  | .userError reason => ⟨reason.toList, 0⟩

partial def readChunks (read : IO ByteArray) (done : Array Log.Chunk) : IO (List Log.Chunk) := do
  match ← read.toBaseIO with
  | .ok bytes =>
    if bytes.isEmpty then return done.toList
    else readChunks read (done.push (.bytes bytes.toList))
  | .error (.interrupted ..) => readChunks read (done.push .interrupted)
  | .error e => return (done.push (.failure (refusalOf e).message)).toList

def attempt {α : Type} (action : IO α) : IO (Except Refusal α) := do
  match ← action.toBaseIO with
  | .ok a => return .ok a
  | .error e => return .error (refusalOf e)

def countProcessors : IO Nat := do
  match ← Std.Async.System.getCPUInfo.toBaseIO with
  | .ok processors => return processors.size
  | .error _ => return 1

/-- Digests statements one by one and notes when each is done, in milliseconds since a time. -/
def timeStatements (start : Nat) (statements : List Text) : IO (Nat → Nat) := do
  let mut times := #[(← IO.monoMsNow) - start]
  for statement in statements do
    -- A task that is waited for is through before the time is taken.
    let _ ← IO.wait (Task.spawn fun _ => Record.ofStatement statement)
    times := times.push ((← IO.monoMsNow) - start)
  return fun done => times.getD done (times.back?.getD 0)

def machine (processors start : Nat) : Machine IO where
  processors
  createFolder path := attempt (IO.FS.createDir (String.ofList path))
  hasFolder path := do
    let place := { ← IO.currentDir with toString := String.ofList path }
    place.isDir
  openFile path := do
    match ← attempt (IO.FS.Handle.mk (String.ofList path) .read) with
    | .ok handle => return .ok (← readChunks (handle.read chunkSize) #[])
    | .error refusal => return .error refusal
  appendFile path := attempt do
    let _ ← IO.FS.Handle.mk (String.ofList path) .append
  input := do
    let input ← IO.getStdin
    readChunks (input.read chunkSize) #[]
  clock := timeStatements start
  today := do
    let now ← Std.Time.Timestamp.now
    return ((Std.Time.PlainDate.ofEpochDay now.toDaysSinceUnixEpoch).format "uuuu-MM-dd").toList

end QueryDigest.Program

def main (arguments : List String) : IO UInt32 := do
  let start ← IO.monoMsNow
  let machine := QueryDigest.Program.machine (← QueryDigest.Program.countProcessors) start
  let result ← QueryDigest.CommandLine.run machine (arguments.map String.toList)
  let output ← IO.getStdout
  output.write ⟨result.output.toArray⟩
  output.flush
  let elapsed := (← IO.monoMsNow) - start
  IO.eprint (String.ofList (result.diagnostics elapsed))
  return result.exitCode.toUInt32
