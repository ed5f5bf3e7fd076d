import LineCalculator.Parse.Source

/-!
# Files and folders

The program opens at most one file, by a path. A path is a list of parts
between slashes, followed from the folder the program runs in, or from the
root if it begins with a slash. An empty part and a single dot stay in the
folder they stand in, a double dot goes one folder up, and any other part
is a name to be looked up there. No part, not even an empty one, leads on
from a file. Names and whole paths have a greatest length.

What the program needs to know of its files is only how a path opens; a
tree of files is one way to tell. The tree holds what is in the folder the
program runs in. Around that folder there are only folders, and nothing in
them is known by name.
-/

namespace LineCalculator

/-- The files and folders that the program can see. -/
structure FileTree where
  /-- Files by path, with their contents. -/
  files : List (Bytes × Bytes)
  /-- Folders by path. -/
  folders : List Bytes

/-- Why a file cannot be opened. -/
inductive OpenError where
  /-- There is nothing there. -/
  | absent
  /-- The path leads through a file. -/
  | throughFile
  /-- The path, or a name on it, is too long. -/
  | tooLong
  /-- It may not be read. -/
  | denied
  deriving DecidableEq

/-- The wording of the error for a path. -/
def OpenError.message (path : Bytes) (e : OpenError) : Bytes :=
  utf8 "open " ++ path ++ utf8 ": " ++
    match e with
    | .absent => utf8 "no such file or directory"
    | .throughFile => utf8 "not a directory"
    | .tooLong => utf8 "file name too long"
    | .denied => utf8 "permission denied"

/-- How paths open. -/
abbrev FileSystem := Bytes → Except OpenError Source

/-- A folder can be opened, but reading it breaks off at once. -/
def Source.ofFolder (path : Bytes) : Source :=
  ⟨[], some (utf8 "read " ++ path ++ utf8 ": is a directory")⟩

namespace FileTree

/-- The greatest length of a name. -/
def nameLimit : Nat := 255

/-- The greatest length of a path. -/
def pathLimit : Nat := 4095

/-- The parts of a path between its slashes. -/
def parts (path : Bytes) : List Bytes := path.split 47

/-- Does this part of a path stay in its folder? -/
def staysHere (part : Bytes) : Bool := part = [] ∨ part = utf8 "."

/-- Does this part of a path go one folder up? -/
def goesUp (part : Bytes) : Bool := part = utf8 ".."

/-- The names on a path. -/
def names (path : Bytes) : List Bytes := (parts path).filter fun part => !staysHere part

/-- Where a path can lead. -/
inductive Place where
  /-- To a file with this content. -/
  | file (content : Bytes)
  /-- To the folder with these names below the one the program runs in. -/
  | folder (names : List Bytes)
  /-- To a folder around the one the program runs in. -/
  | around
  deriving DecidableEq

/-- The file or folder with these names. -/
def place? (t : FileTree) (path : List Bytes) : Option Place :=
  match t.files.find? fun f => names f.1 = path with
  | some (_, content) => some (.file content)
  | none =>
    let known := t.files.map (fun f => names f.1) ++ t.folders.map names
    if path = [] ∨ known.any (fun k => path.isPrefixOf k) then some (.folder path) else none

/-- Looks up a name where `found?` is what it stands for. -/
def lookUp (name : Bytes) (found? : Option Place) : Except OpenError Place :=
  if nameLimit < name.length then .error .tooLong
  else
    match found? with
    | some place => .ok place
    | none => .error .absent

/-- Follows one part of a path. -/
def follow (t : FileTree) : Place → (part : Bytes) → Except OpenError Place
  | .file _, _ => .error .throughFile
  | .folder here, part =>
    if staysHere part then .ok (.folder here)
    else if goesUp part then .ok (if here = [] then .around else .folder here.dropLast)
    else lookUp part (t.place? (here ++ [part]))
  | .around, part => if staysHere part || goesUp part then .ok .around else lookUp part none

/-- Where a path begins. -/
def startOf : Bytes → Place
  | 47 :: _ => .around
  | _ => .folder []

/-- How paths open in the tree. -/
def fileSystem (t : FileTree) : FileSystem := fun path =>
  if path = [] then .error .absent
  else if pathLimit < path.length then .error .tooLong
  else
    match (parts path).foldlM t.follow (startOf path) with
    | .error e => .error e
    | .ok (.file content) => .ok ⟨content, none⟩
    | .ok _ => .ok (.ofFolder path)

end FileTree

end LineCalculator
