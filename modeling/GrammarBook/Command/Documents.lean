import GrammarBook.Command.Style
import GrammarBook.Command.Trouble
import GrammarBook.Settings.Discovery
import GrammarBook.Validator

namespace GrammarBook
namespace Command

/-!
# The documents of a command

A path given to a command is a document or a directory. Of a directory the command takes the
documents in it and below it, in the order of their paths; a document that is named is taken
whatever its name.
-/

variable {m : Type → Type} [Monad m] [Host m]

/-- Work that may end early. -/
abbrev Work (m : Type → Type) := ExceptT Trouble m

def documentExtension : String := "cdsn"

def isDocument (path : String) : Bool := Path.extension? path = some documentExtension

/-- The documents that a path stands for. -/
def documentsAt (path : String) : Work m (List String) := do
  match ← (Host.lookAt? path : m _) with
  | some .file => return [path]
  | some .directory => return Path.sort ((← (Host.filesBelow path : m _)).filter isDocument)
  | none => throw (.nothingAt path)

def documents (paths : List String) : Work m (List String) :=
  return (← paths.mapM documentsAt).flatten

/-- The text of a document. -/
def readDocument (path : String) : Work m String := do
  match ← (Host.readText path : m _) with
  | .ok text => return text
  | .error problem => throw (.unreadable path problem)

/-- The place from which settings are searched: the first path, or the directory of the document
that it is. -/
def settingsStart (paths : List String) : m String := do
  match paths with
  | [] => return "."
  | path :: _ => if ← Host.isFile path then return Path.directoryOf path else return path

def obtainSettings (chosen : Option String) (paths : List String) : Work m Settings := do
  match ← (Settings.obtain chosen (← (settingsStart paths : m _)) : m _) with
  | .ok settings => return settings
  | .error fault => throw (.faulty fault)

/-- Reads a document and checks it. -/
def readValid (settings : Settings) (source : String) : Except Fault Document := do
  let document ← settings.parser.parse source
  document.validate
  pure document

/-- The document in a source, or the fault that makes it a faulty one. -/
def judge (settings : Settings) (path source : String) : Work m (Except Fault Document) :=
  match Fault.separate (readValid settings source) with
  | .ok verdict => return verdict
  | .error fault => throw (.unprocessable path fault)

def report (isPlain : Bool) (path : String) (fault : Fault) : m Unit := do
  Host.complainLine (Style.failure.mark isPlain "✗" ++ " " ++ path)
  Host.complainLine fault.message

/-- Answers where there is no document to work on. -/
def reportNothing : m Unit :=
  Host.printLine "No notation documents found in specified paths."

end Command
end GrammarBook
