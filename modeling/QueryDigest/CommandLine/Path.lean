import QueryDigest.Text.Basic

/-!
Paths: names with slashes between them. Empty names and dots in a path lead nowhere, so a path and
the folders above it are told apart by the other names alone.
-/

namespace QueryDigest.CommandLine

/-- A path cut at its slashes. It starts at the root if its first character is a slash. -/
structure Path where
  rooted : Bool
  names : List Text
  deriving DecidableEq, Repr

namespace Path

def ofText : Text → Path
  | '/' :: rest => ⟨true, rest.splitOn '/'⟩
  | path => ⟨false, path.splitOn '/'⟩

def text (p : Path) : Text :=
  (if p.rooted then ['/'] else []) ++ Text.join ['/'] p.names

/--
Whether names, given in reverse, end in one that leads somewhere. A dot counts at the start of a
path that starts where we are.
-/
def endsInStep (rooted : Bool) : (reversed : List Text) → Bool
  | [] => true
  | [['.']] => !rooted
  | name :: _ => name != [] && name != ['.']

/-- The beginnings of names that end in a step, the longest first; all names are in reverse. -/
def beginnings (rooted : Bool) : (reversed : List Text) → List (List Text)
  | [] => [[]]
  | name :: before =>
    if endsInStep rooted (name :: before) then (name :: before) :: beginnings rooted before
    else beginnings rooted before

def above (path : Text) : List Text :=
  let p := ofText path
  ((beginnings p.rooted p.names.reverse).drop 1).map fun names =>
    text ⟨p.rooted, names.reverse⟩

/-- The path of a name in a folder. A slash at the end of the folder's path is not doubled. -/
def below (folder name : Text) : Text :=
  if folder.getLastD '/' = '/' then folder ++ name else folder ++ '/' :: name

end Path
end QueryDigest.CommandLine
