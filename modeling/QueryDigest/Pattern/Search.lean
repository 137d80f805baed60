import QueryDigest.Pattern.Basic

/-!
Searching: the leftmost match of a pattern, the division of a text into all its matches and the
characters between them, and the replacement of matches.
-/

namespace QueryDigest.Pattern

/-- The first match at the place between `before` and `after` or behind it. -/
def findBetween (p : Pattern) : (before after : Text) → Option Hit
  | before, [] => p.matchAt? ⟨before, []⟩
  | before, c :: rest =>
    match p.matchAt? ⟨before, c :: rest⟩ with
    | some h => some h
    | none => findBetween p (c :: before) rest

def findFrom (p : Pattern) (c : Cursor) : Option Hit :=
  p.findBetween c.before c.after

def find (p : Pattern) (t : Text) : Option Hit :=
  p.findFrom (.start t)

def occursIn (p : Pattern) (t : Text) : Bool :=
  (p.find t).isSome

/-- A part of a text that has been searched: a character outside all matches, or a match. -/
inductive Piece where
  | kept (c : Char)
  | hit (h : Hit)

/--
Divides the text at a place into pieces. The next `inside` characters belong to a match that has
been reported; `done` holds the pieces so far in reverse. Only matches with a character count.
-/
def piecesFrom (p : Pattern) (done : List Piece) :
    (inside : Nat) → (before after : Text) → List Piece
  | _, _, [] => done.reverse
  | inside + 1, before, c :: rest => piecesFrom p done inside (c :: before) rest
  | 0, before, c :: rest =>
    match p.matchAt? ⟨before, c :: rest⟩ with
    | some ⟨start, length + 1, groups⟩ =>
      piecesFrom p (.hit ⟨start, length + 1, groups⟩ :: done) length (c :: before) rest
    | _ => piecesFrom p (.kept c :: done) 0 (c :: before) rest

/-- The pieces of a text: its matches from left to right, none inside another, and the rest. -/
def pieces (p : Pattern) (t : Text) : List Piece :=
  p.piecesFrom [] 0 [] t

def hits (p : Pattern) (t : Text) : List Hit :=
  (p.pieces t).filterMap fun
    | .kept _ => none
    | .hit h => some h

/-- Writes `f` of each match in the place of the match. -/
def replaceAll (p : Pattern) (f : Hit → Text) (t : Text) : Text :=
  (p.pieces t).flatMap fun
    | .kept c => [c]
    | .hit h => f h

def removeAll (p : Pattern) (t : Text) : Text :=
  p.replaceAll (fun _ => []) t

def replaceFirst (p : Pattern) (f : Hit → Text) (t : Text) : Text :=
  match p.find t with
  | some h => h.start.before.reverse ++ f h ++ h.stop.after
  | none => t

end QueryDigest.Pattern
