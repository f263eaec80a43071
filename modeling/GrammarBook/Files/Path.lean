namespace GrammarBook
namespace Path

/-!
# Paths

A path is written with slashes between its parts. It is kept as it was given, since messages show
it so; its parts are looked at where it is followed or compared.
-/

def parts (path : String) : List String := (path.toList.splitOn '/').map String.ofList

/-- The path of something in a directory. -/
def join (directory name : String) : String :=
  if directory.endsWith "/" then directory ++ name else directory ++ "/" ++ name

/-- The parts that name something. -/
def names (path : String) : List String := (parts path).filter fun part => part ≠ "" ∧ part ≠ "."

/-- The last name of a path, unless it leads upwards. -/
def fileName? (path : String) : Option String :=
  match (names path).getLast? with
  | some name => if name = ".." then none else some name
  | none => none

/-- The characters of a file name behind its last point, unless the name starts with that point. -/
def extensionChars? (name : List Char) : Option (List Char) :=
  let behind := (name.reverse.takeWhile (· ≠ '.')).reverse
  if behind.length + 1 < name.length then some behind else none

def extension? (path : String) : Option String :=
  (fileName? path).bind fun name => (extensionChars? name.toList).map String.ofList

/-- The directory that the file at a path lies in. Where the path names none, it is the current one,
or the topmost one if the path starts there. -/
def directoryOf (path : String) : String :=
  let directory := "/".intercalate (parts path).dropLast
  if directory ≠ "" then directory else if path.startsWith "/" then "/" else "."

/-- The order of paths, part by part. -/
def precedes : List String → List String → Bool
  | [], _ => true
  | _ :: _, [] => false
  | a :: left, b :: right => if a = b then precedes left right else a < b

def sort (paths : List String) : List String :=
  paths.mergeSort fun left right => precedes (names left) (names right)

end Path
end GrammarBook
