import QueryDigest.Proofs.Log.Reading

/-!
Reading a log whose reading fails now and then. Failures cut a log into stretches. A stretch that a
failure ends gives the statements of its complete lines and then the failure; what is read behind
the last failure gives the statements of all its lines. No line goes on behind a failure. A read
that is interrupted and tried again is no failure: it cuts no stretch and breaks no line.
-/

namespace QueryDigest.Log

/-- Bytes that are read chunk by chunk, and the failure that ends the reading of them. -/
structure Stretch where
  chunks : List (List UInt8)
  message : Text

namespace Stretch

def log (s : Stretch) : List Chunk :=
  s.chunks.map .bytes ++ [.failure s.message]

/-- The stretches of a log that a failure ends, and the chunks of bytes behind the last failure.
Interruptions are passed over. -/
def cut : List Chunk → List Stretch × List (List UInt8)
  | [] => ([], [])
  | .interrupted :: rest => cut rest
  | .failure message :: rest => (⟨[], message⟩ :: (cut rest).1, (cut rest).2)
  | .bytes bytes :: rest =>
    match cut rest with
    | ([], last) => ([], bytes :: last)
    | (s :: more, last) => (⟨bytes :: s.chunks, s.message⟩ :: more, last)

end Stretch

/-- The lines of some bytes that end in a line feed. -/
def completeLines (bytes : List UInt8) : List (List UInt8) :=
  (bytes.splitOn lineFeed).dropLast

/-- The statements in lines, each of which is decoded on its own. -/
def statementsOn (lines : List (List UInt8)) : List Text :=
  (lines.map Utf8.decode).filterMap statementIn

/-- What a stretch gives: the statements of its complete lines, and its failure. -/
def Stretch.items (s : Stretch) : List Item :=
  (statementsOn (completeLines s.chunks.flatten)).map .statement ++ [.failure s.message]

end QueryDigest.Log
