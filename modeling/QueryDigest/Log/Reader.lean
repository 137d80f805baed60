import QueryDigest.Log.Line
import QueryDigest.Text.Utf8

/-!
Reading a query log. The log arrives in chunks of bytes, cut anywhere, with failures between them;
lines are put together across chunks and read one by one, so that bytes which are no text spoil
only their own line. A failure drops the line that it breaks off. A read that is only interrupted is
tried again, and its line goes on.
-/

namespace QueryDigest.Log

/-- What one access to a log gives: the next bytes, none at the log's end, or no bytes because it
was interrupted or because it failed. -/
inductive Chunk where
  | bytes (bytes : List UInt8)
  | interrupted
  | failure (message : Text)

inductive Item where
  | statement (text : Text)
  | failure (message : Text)
  deriving DecidableEq, Repr

def lineFeed : UInt8 := 10

/-- The complete lines in some bytes, without their line feeds, and the line left open. -/
def cutLines (bytes : List UInt8) : List (List UInt8) × List UInt8 :=
  match (bytes.splitOn lineFeed).reverse with
  | [] => ([], [])
  | last :: complete => (complete.reverse, last)

def itemIn (line : List UInt8) : Option Item :=
  (statementIn (Utf8.decode line)).map .statement

/--
The items of a log that goes on with the given chunks when `pending` is the open line. A chunk
without bytes ends the line that is open, and where none is open it ends the log.
-/
def itemsAfter (pending : List UInt8) : List Chunk → List Item
  | [] => (itemIn pending).toList
  | .interrupted :: rest => itemsAfter pending rest
  | .failure message :: rest => .failure message :: itemsAfter [] rest
  | .bytes [] :: rest =>
    if pending.isEmpty then [] else (itemIn pending).toList ++ itemsAfter [] rest
  | .bytes bytes :: rest =>
    let (complete, last) := cutLines (pending ++ bytes)
    complete.filterMap itemIn ++ itemsAfter last rest

def items (chunks : List Chunk) : List Item :=
  itemsAfter [] chunks

end QueryDigest.Log
