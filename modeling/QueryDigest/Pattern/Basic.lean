import QueryDigest.Pattern.Cursor

/-!
Patterns over texts and the matches they have at a place. Where a pattern can match in several
ways the first one counts: the earlier alternative, the longer or the shorter run as the pattern
says, as many rounds as possible. A way counts only if the rest of the pattern matches behind it,
so the attempt at a part is told how the attempt goes on after it.
-/

namespace QueryDigest

/-- Which runs of characters of a class a pattern tries. -/
inductive Reach where
  /-- All the characters of the class ahead, and no fewer. -/
  | all
  /-- The longest run, then shorter ones. -/
  | longest
  /-- The shortest run, then longer ones. -/
  | shortest

/-- What a text may look like from a place on. -/
inductive Pattern where
  | empty
  /-- The empty text, between texts with a property; the one before is given in reverse. -/
  | holds (test : (before after : Text) → Bool)
  | one (ok : Char → Bool)
  | seq (first second : Pattern)
  /-- One of two patterns, the first where both match. -/
  | alt (first second : Pattern)
  /-- A run of characters of a class, perhaps an empty one. -/
  | chars (reach : Reach) (ok : Char → Bool)
  /-- Any number of rounds of a pattern, as many as possible, none of them empty. -/
  | many (round : Pattern)
  /-- A pattern whose text is reported. -/
  | group (inner : Pattern)

namespace Pattern

/--
How far an attempt has come: the texts before and after the place it has reached, the number of
characters it has passed over, and where in them each group that has been closed starts and stops.
-/
structure Attempt where
  before : Text
  after : Text
  passed : Nat
  groups : List (Nat × Nat)

/-- How an attempt goes on from where it is: to its end, or not at all. -/
abbrev Onward := Attempt → Option Attempt

/-- An attempt closes the group that it opened when it had passed over `opened` characters. -/
def Attempt.close (opened : Nat) (a : Attempt) : Attempt :=
  { a with groups := a.groups ++ [(opened, a.passed)] }

def furthest (ok : Char → Bool) (groups : List (Nat × Nat)) :
    (before : Text) → (passed : Nat) → (after : Text) → Attempt
  | before, passed, [] => ⟨before, [], passed, groups⟩
  | before, passed, c :: rest =>
    if ok c then furthest ok groups (c :: before) (passed + 1) rest
    else ⟨before, c :: rest, passed, groups⟩

/--
The attempts behind the runs of characters of a class that `after` starts with, the longest run
first, in front of those in `reached`.
-/
def runs (ok : Char → Bool) (groups : List (Nat × Nat)) :
    (before : Text) → (passed : Nat) → (after : Text) → (reached : List Attempt) → List Attempt
  | before, passed, [], reached => ⟨before, [], passed, groups⟩ :: reached
  | before, passed, c :: rest, reached =>
    let reached := ⟨before, c :: rest, passed, groups⟩ :: reached
    if ok c then runs ok groups (c :: before) (passed + 1) rest reached else reached

/-- Tries the runs of characters of a class that `after` starts with, the shortest first. -/
def nearest (ok : Char → Bool) (groups : List (Nat × Nat)) (onward : Onward) :
    (before : Text) → (passed : Nat) → (after : Text) → Option Attempt
  | before, passed, [] => onward ⟨before, [], passed, groups⟩
  | before, passed, c :: rest =>
    match onward ⟨before, c :: rest, passed, groups⟩ with
    | some a => some a
    | none => if ok c then nearest ok groups onward (c :: before) (passed + 1) rest else none

/--
Tries rounds of `once`, as many as possible. Each round passes over a character, so no more rounds
than there are characters in `ahead` are worth trying.
-/
def rounds (once : Attempt → Onward → Option Attempt) :
    (ahead : Text) → Attempt → Onward → Option Attempt
  | [], a, onward => onward a
  | _ :: ahead, a, onward =>
    match once a fun b => if a.passed < b.passed then rounds once ahead b onward else none with
    | some b => some b
    | none => onward a

/-- The end of the first way in which the pattern matches from `a` and the attempt goes on. -/
def run : Pattern → Attempt → Onward → Option Attempt
  | .empty, a, onward => onward a
  | .holds test, a, onward => if test a.before a.after then onward a else none
  | .one ok, a, onward =>
    match a.after with
    | [] => none
    | c :: rest => if ok c then onward ⟨c :: a.before, rest, a.passed + 1, a.groups⟩ else none
  | .seq p q, a, onward => p.run a fun b => q.run b onward
  | .alt p q, a, onward =>
    match p.run a onward with
    | some b => some b
    | none => q.run a onward
  | .chars .all ok, a, onward => onward (furthest ok a.groups a.before a.passed a.after)
  | .chars .longest ok, a, onward =>
    (runs ok a.groups a.before a.passed a.after []).findSome? onward
  | .chars .shortest ok, a, onward => nearest ok a.groups onward a.before a.passed a.after
  | .many p, a, onward => rounds p.run a.after a onward
  | .group p, a, onward => p.run a fun b => onward (b.close a.passed)

/-- A match: where it starts, how many characters it takes, and its groups within them. -/
structure Hit where
  start : Cursor
  length : Nat
  groups : List (Nat × Nat)

namespace Hit

def text (h : Hit) : Text :=
  h.start.after.take h.length

def stop (h : Hit) : Cursor :=
  h.start.skip h.length

/-- The text of a group, counted from zero in the order in which groups close. -/
def group (h : Hit) (i : Nat) : Text :=
  match h.groups[i]? with
  | some (opened, closed) => (h.start.after.drop opened).take (closed - opened)
  | none => []

end Hit

def matchAt? (p : Pattern) (c : Cursor) : Option Hit :=
  (p.run ⟨c.before, c.after, 0, []⟩ some).map fun a => ⟨c, a.passed, a.groups⟩

end Pattern
end QueryDigest
