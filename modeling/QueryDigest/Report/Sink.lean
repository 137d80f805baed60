import QueryDigest.Failure
import QueryDigest.Text.Utf8

/-!
Where a report goes. A sink may have room for a limited number of bytes: it takes what fits of the
text that exceeds its room, and from then on every write of anything fails.
-/

namespace QueryDigest

/-- The bytes written so far and the number of bytes there may be, if there is a limit. -/
structure Sink where
  limit : Option Nat
  taken : Array UInt8

namespace Sink

def empty (limit : Option Nat) : Sink :=
  ⟨limit, #[]⟩

def full : Failure :=
  .io "sink full".toList

/-- Writes a text, or as much of it as there is room for. -/
def write (s : Sink) (t : Text) : Sink × Except Failure Unit :=
  let bytes := Utf8.encode t
  match s.limit with
  | none => ({ s with taken := s.taken ++ bytes }, .ok ())
  | some limit =>
    let room := limit - s.taken.size
    ({ s with taken := s.taken ++ bytes.take room },
      if bytes.length ≤ room then .ok () else .error full)

def text (s : Sink) : Text :=
  Utf8.decode s.taken.toList

end Sink
end QueryDigest
