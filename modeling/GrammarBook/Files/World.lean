import GrammarBook.Files.Host
import GrammarBook.Files.Path

namespace GrammarBook

/-!
# Worlds

A world is a small file system as a value, together with a current directory and what has been
printed. Running a command on a world shows everything the command does.
-/

/-- What a file holds: a text, or bytes that are none. -/
inductive Content where
  | text (text : String)
  | bytes (bytes : List UInt8)
  deriving DecidableEq, Repr

/-- Files and directories by the names that lead to them from the root. A directory exists if it is
listed or lies on the way to something. -/
structure FileTree where
  files : List (List String × Content) := []
  directories : List (List String) := []
  deriving DecidableEq, Repr

namespace FileTree

def content? (tree : FileTree) (path : List String) : Option Content :=
  (tree.files.find? (·.1 == path)).map (·.2)

def isDirectory (tree : FileTree) (path : List String) : Bool :=
  path.isEmpty || tree.directories.any path.isPrefixOf ||
    tree.files.any fun file => path.isPrefixOf file.1 && path.length < file.1.length

/-- What stands at the path. -/
def lookAt? (tree : FileTree) (path : List String) : Option EntryKind :=
  if (tree.content? path).isSome then some .file
  else if tree.isDirectory path then some .directory
  else none

/-- Follows one part of a path from a place that exists. -/
def follow (tree : FileTree) (place : List String) (part : String) :
    Except FileProblem (List String) :=
  if (tree.content? place).isSome then .error .notDirectory
  else if part = "" ∨ part = "." then .ok place
  else if part = ".." then .ok place.dropLast
  else if (tree.lookAt? (place ++ [part])).isSome then .ok (place ++ [part])
  else .error .missing

def replace (tree : FileTree) (path : List String) (content : Content) : FileTree :=
  { tree with
    files := tree.files.map fun file => if file.1 = path then (path, content) else file }

/-- The files below a directory, by the names that lead to them from there. -/
def filesBelow (tree : FileTree) (directory : List String) : List (List String) :=
  tree.files.filterMap fun file =>
    if directory.isPrefixOf file.1 ∧ directory.length < file.1.length then
      some (file.1.drop directory.length)
    else none

end FileTree

/-- A file system with the full name of its root, a current directory, the places that cannot be
written, and what was printed. -/
structure World where
  tree : FileTree
  rootName : String
  directory : List String := []
  readOnly : List (List String) := []
  output : String := ""
  errors : String := ""

namespace World

/-- The full path of a place. -/
def fullPath (world : World) (place : List String) : String :=
  place.foldl Path.join world.rootName

/-- The place that a path leads to. A path that starts with the name of the root starts there; other
paths start from the current directory. -/
def locate (world : World) (path : String) : Except FileProblem (List String) :=
  match Path.parts path with
  | [] | [""] => .error .missing
  | first :: others =>
    if first = world.rootName then others.foldlM world.tree.follow []
    else if first = "" then .error .missing
    else (first :: others).foldlM world.tree.follow world.directory

/-- The places from one up to the root. -/
def placesUpwards : Nat → List String → List (List String)
  | 0, _ => [[]]
  | depth + 1, place => place :: placesUpwards depth place.dropLast

def readText (world : World) (path : String) : Except FileProblem String := do
  let place ← world.locate path
  match world.tree.content? place with
  | some (.text text) => .ok text
  | some (.bytes _) => .error .notText
  | none => .error .directory

/-- The world with another text in a file. -/
def writeText (world : World) (path text : String) : Except FileProblem World := do
  let place ← world.locate path
  match world.tree.content? place with
  | some _ =>
    if place ∈ world.readOnly then .error .denied
    else .ok { world with tree := world.tree.replace place (.text text) }
  | none => .error .directory

/-- What stands at a path. -/
def lookAt? (world : World) (path : String) : Option EntryKind :=
  (world.locate path).toOption.bind world.tree.lookAt?

/-- The files below the directory at a path. -/
def filesBelow (world : World) (path : String) : List String :=
  match world.locate path with
  | .ok place => (world.tree.filesBelow place).map (·.foldl Path.join path)
  | .error _ => []

/-- The directories from a path up to the root. -/
def upwards (world : World) (path : String) : Except FileProblem (List String) := do
  let place ← world.locate path
  pure ((placesUpwards place.length place).map world.fullPath)

end World

instance : Host (StateM World) where
  lookAt? path := return (← get).lookAt? path
  filesBelow path := return (← get).filesBelow path
  upwards path := return (← get).upwards path
  readText path := return (← get).readText path
  writeText path text := do
    match (← get).writeText path text with
    | .ok world => set world; return .ok ()
    | .error problem => return .error problem
  print text := modify fun world => { world with output := world.output ++ text }
  complain text := modify fun world => { world with errors := world.errors ++ text }

end GrammarBook
