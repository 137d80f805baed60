import QueryDigest.Text.Basic

/-!
Places in a text. A pattern that asks what stands before a place and a search that goes on behind
its last find both see the whole text, never a piece cut out of it.
-/

namespace QueryDigest

/-- A place in a text: what stands before it, the nearest character first, and what follows. -/
structure Cursor where
  before : Text
  after : Text

namespace Cursor

def start (t : Text) : Cursor :=
  ⟨[], t⟩

def text (c : Cursor) : Text :=
  c.before.reverse ++ c.after

/-- The place `n` characters further on, or the end of the text. -/
def skip (c : Cursor) (n : Nat) : Cursor :=
  ⟨(c.after.take n).reverse ++ c.before, c.after.drop n⟩

@[simp] theorem text_start (t : Text) : (start t).text = t := rfl

@[simp] theorem text_skip (c : Cursor) (n : Nat) : (c.skip n).text = c.text := by
  simp [text, skip, List.append_assoc]

end Cursor
end QueryDigest
