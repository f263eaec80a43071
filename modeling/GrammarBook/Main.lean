import GrammarBook.Command.Run

/-!
# The program

The file system and the two output channels as the surroundings of a command.
-/

namespace GrammarBook
namespace Main

/-- The problem that an operation on a file failed with. -/
def problemOf : IO.Error → FileProblem
  | .noFileOrDirectory .. => .missing
  | error => .stated (toString error)

/-- Runs an operation on a file. -/
def attempt {α : Type} (operation : IO α) : IO (Except FileProblem α) := do
  try
    return .ok (← operation)
  catch error =>
    return .error (problemOf error)

def lookAt? (path : String) : IO (Option EntryKind) := do
  match ← attempt do (← IO.FS.realPath path).metadata with
  | .ok found =>
    match found.type with
    | .file => return some .file
    | .dir => return some .directory
    | _ => return none
  | .error _ => return none

/-- What stands in a directory under a name, if it stands there itself and not by a symbolic link. -/
def entryKind? (entry : IO.FS.DirEntry) : IO (Option EntryKind) := do
  match ← attempt entry.path.symlinkMetadata with
  | .ok found =>
    match found.type with
    | .file => return some .file
    | .dir => return some .directory
    | _ => return none
  | .error _ => return none

/-- The files in and below a directory. What cannot be looked into is left out. The directory may be
a symbolic link, but none is followed below it. -/
partial def filesBelow (directory : String) : IO (List String) := do
  match ← attempt do (← IO.FS.realPath directory).readDir with
  | .error _ => return []
  | .ok entries =>
    let below ← entries.toList.mapM fun entry => do
      let path := Path.join directory entry.fileName
      match ← entryKind? entry with
      | some .file => return [path]
      | some .directory => filesBelow path
      | none => return []
    return below.flatten

/-- The directories from a path up to the root. -/
def upwards (path : String) : IO (Except FileProblem (List String)) :=
  attempt do
    let mut places := []
    let mut place? := some (← IO.FS.realPath path)
    while place?.isSome do
      if let some place := place? then
        places := place.toString :: places
        place? := place.parent
    return places.reverse

def readText (path : String) : IO (Except FileProblem String) := do
  if (← lookAt? path) == some .directory then return .error .directory
  match ← attempt (IO.FS.readBinFile path) with
  | .error problem => return .error problem
  | .ok bytes =>
    match String.fromUTF8? bytes with
    | some text => return .ok text
    | none => return .error .notText

instance : Host IO where
  lookAt? := lookAt?
  filesBelow := filesBelow
  upwards := upwards
  readText := readText
  writeText path text := attempt (IO.FS.writeFile path text)
  print text := do
    (← IO.getStdout).putStr text
  complain text := do
    (← IO.getStderr).putStr text

end Main
end GrammarBook

/-- Runs the command line that the program is given. -/
def main (arguments : List String) : IO UInt32 := do
  let wantsPlain := (← IO.getEnv "NO_COLOR").isSome
  let exit ← GrammarBook.Command.run wantsPlain arguments
  return exit.toUInt32
