import QueryDigest.CommandLine.Run

/-!
Files and folders held in memory, for runs that touch no real ones. A path is followed name by
name from the root or from the current folder, and every name is looked up in a folder.
-/

namespace QueryDigest.CommandLine

inductive Entry where
  | file (bytes : List UInt8)
  | folder
  deriving DecidableEq

/-- A place in a tree: the names that lead there from the root. -/
abbrev Place := List Text

/-- The current folder, and what there is at places other than the root. -/
structure FileTree where
  current : Place
  entries : List (Place × Entry)
  /-- The folders in which, and below which, nothing can be made. -/
  closed : List Place

namespace FileTree

/-! ### Refusals -/

def missing : Refusal := ⟨"No such file or directory".toList, Refusal.missingNumber⟩

def existing : Refusal := ⟨"File exists".toList, 17⟩

def notFolder : Refusal := ⟨"Not a directory".toList, 20⟩

def isFolder : Refusal := ⟨"Is a directory".toList, 21⟩

def tooLong : Refusal := ⟨"File name too long".toList, 36⟩

def longestName : Nat := 255

def longestPath : Nat := 4095

/-! ### Following paths -/

/-- What there is at a place. The root is a folder. -/
def entry? (t : FileTree) (place : Place) : Option Entry :=
  if place.isEmpty then some .folder else t.entries.lookup place

/--
Follows one name from a place, which has to be a folder. An empty name or a dot stays there, two
dots lead to the folder above, and above the root there is the root.
-/
def step (t : FileTree) (place : Place) (name : Text) : Except Refusal Place :=
  match t.entry? place with
  | some .folder =>
    if name = [] ∨ name = ['.'] then .ok place
    else if name = ['.', '.'] then .ok place.dropLast
    else if longestName < (Utf8.encode name).length then .error tooLong
    else if (t.entry? (place ++ [name])).isSome then .ok (place ++ [name])
    else .error missing
  | _ => .error notFolder

def follow (t : FileTree) (place : Place) (names : List Text) : Except Refusal Place :=
  names.foldlM t.step place

def origin (t : FileTree) (p : Path) : Place :=
  if p.rooted then [] else t.current

def cut (path : Text) : Except Refusal Path :=
  if longestPath < (Utf8.encode path).length then .error tooLong else .ok (.ofText path)

def locate (t : FileTree) (path : Text) : Except Refusal Place := do
  let p ← cut path
  t.follow (t.origin p) p.names

/-! ### Operations -/

/-- Opens the file at a path. A folder can be opened, but reading it fails. -/
def openFile (t : FileTree) (path : Text) : Except Refusal (List Log.Chunk) := do
  let place ← t.locate path
  match t.entry? place with
  | some (.file bytes) => return [.bytes bytes]
  | some .folder => return [.failure isFolder.message]
  | none => .error missing

def hasFolder (t : FileTree) (path : Text) : Bool :=
  match t.locate path with
  | .ok place => t.entry? place = some .folder
  | .error _ => false

def add (t : FileTree) (place : Place) (name : Text) (entry : Entry) : Except Refusal FileTree :=
  match t.step place name with
  | .ok _ => .error existing
  | .error refusal =>
    if refusal = missing && !t.closed.any (·.isPrefixOf place) then
      .ok { t with entries := (place ++ [name], entry) :: t.entries }
    else .error refusal

/--
Makes one folder, in a folder that is there. Slashes at the end of the path count for nothing, and
a path that ends in dots names nothing new.
-/
def createFolder (t : FileTree) (path : Text) : Except Refusal FileTree := do
  let p ← cut path
  match p.names.reverse.dropWhile List.isEmpty with
  | [] => .error existing
  | last :: before =>
    let place ← t.follow (t.origin p) before.reverse
    t.add place last .folder

/-- Opens the file at a path to write at its end. If there is nothing, an empty file is made. -/
def appendFile (t : FileTree) (path : Text) : Except Refusal FileTree := do
  let p ← cut path
  let place ← t.follow (t.origin p) p.names.dropLast
  match t.add place (p.names.getLastD []) (.file []) with
  | .ok t => return t
  | .error refusal =>
    if refusal != existing then .error refusal
    else if t.hasFolder path then .error isFolder
    else return t

/-! ### The tree of a run -/

def placeOf (path : String) : Place :=
  path.toList.splitOn '/'

def systemFolders : List Place :=
  ["bin", "boot", "dev", "dev/fd", "etc", "home", "lib", "media", "mnt", "opt", "proc",
    "proc/self", "proc/self/fd", "root", "run", "sbin", "srv", "sys", "tmp", "usr", "usr/bin",
    "usr/lib", "usr/local", "usr/share", "var", "var/tmp"].map placeOf

def inputFiles : List Place :=
  ["dev/stdin", "dev/fd/0", "proc/self/fd/0"].map placeOf

def workFolder : Place :=
  placeOf "tmp/work"

/--
The tree in which a run starts: a folder of its own with the given files, the null device, and the
standard input as a file. The folders through which a system shows itself are closed.
-/
def ofFiles (files : List (Text × List UInt8)) (input : List UInt8) : FileTree where
  current := workFolder
  entries :=
    files.map (fun (name, bytes) => (workFolder ++ [name], .file bytes))
      ++ (workFolder, .folder)
      :: (placeOf "dev/null", .file [])
      :: inputFiles.map (·, .file input)
      ++ systemFolders.map (·, .folder)
  closed := ["dev/fd", "proc", "sys"].map placeOf

def change (f : FileTree → Except Refusal FileTree) : StateM FileTree (Except Refusal Unit) :=
  fun t =>
    match f t with
    | .ok t => (.ok (), t)
    | .error refusal => (.error refusal, t)

/-- The machine with this tree and the given input, one processor and a clock that stands still. -/
def machine (input : List UInt8) : Machine (StateM FileTree) where
  processors := 1
  createFolder path := change (·.createFolder path)
  hasFolder path := fun t => (t.hasFolder path, t)
  openFile path := fun t => (t.openFile path, t)
  appendFile path := change (·.appendFile path)
  input := pure [.bytes input]
  clock _ := fun t => (fun _ => 0, t)
  today := pure "1970-01-01".toList

end FileTree
end QueryDigest.CommandLine
