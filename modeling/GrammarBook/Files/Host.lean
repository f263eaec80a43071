import GrammarBook.Fault

namespace GrammarBook

/-!
# Hosts

What the command line needs from its surroundings: looking at files and directories, reading and
writing texts, and two channels for what it has to say. A host may be a file system, or a value in
which a whole run can be reasoned about.
-/

/-- What stands at a path. -/
inductive EntryKind where
  | file
  | directory
  deriving DecidableEq, Repr

/-- The surroundings of a command. -/
class Host (m : Type → Type) where
  /-- What stands at the path. -/
  lookAt? : String → m (Option EntryKind)
  /-- The files in and below a directory, with the directory in front of their paths. No links are
  followed below the directory. -/
  filesBelow : String → m (List String)
  /-- The directories from a path up to the root, each by its own full path. -/
  upwards : String → m (Except FileProblem (List String))
  /-- The text of a file. -/
  readText : String → m (Except FileProblem String)
  /-- Replaces the text of a file. -/
  writeText : String → String → m (Except FileProblem Unit)
  /-- Adds to what the command answers. -/
  print : String → m Unit
  /-- Adds to what the command reports. -/
  complain : String → m Unit

namespace Host

variable {m : Type → Type} [Monad m] [Host m]

def isFile (path : String) : m Bool := return (← lookAt? path) = some .file

def printLine (line : String) : m Unit := print (line ++ "\n")

/-- Reports a line. -/
def complainLine (line : String) : m Unit := complain (line ++ "\n")

end Host
end GrammarBook
