import GrammarBook.Command.Documents
import GrammarBook.Command.Line
import GrammarBook.Layout

namespace GrammarBook
namespace Command

/-!
# Formatting documents

A formatted document is printed, or replaces its file, or is only compared with it. A file is
replaced only by the layout of the valid document that was read from it, and only if that differs.
-/

variable {m : Type → Type} [Monad m] [Host m]

/-- What formatting a document comes to. -/
inductive Verdict where
  | fine
  | differs
  | faulty
  deriving DecidableEq, Repr

/-- Work with the formatter that all documents of a command share. -/
abbrev FormatWork (m : Type → Type) := StateT Formatter (Work m)

/-- The layout of a valid document. -/
def layOut (document : Document) : FormatWork m String := do
  let (layout, formatter) := (← get).format document
  set formatter
  match layout with
  | .ok text => return text
  | .error fault => throw (.faulty fault)

/-- Puts the layout of a document where it belongs, given that its source is another text. -/
def deliver (isPlain : Bool) (destination : Destination) (path formatted : String) :
    Work m Verdict := do
  match destination with
  | .output => (Host.print formatted : m _); return .fine
  | .nowhere =>
    (Host.printLine (Style.change.mark isPlain "Would reformat:" ++ " " ++ path) : m _)
    return .differs
  | .file =>
    match ← (Host.writeText path formatted : m _) with
    | .error problem => throw (.unwritable path problem)
    | .ok _ =>
      (Host.printLine (Style.success.mark isPlain "Formatted:" ++ " " ++ path) : m _)
      return .fine

def formatDocument (settings : Settings) (isPlain : Bool) (destination : Destination)
    (path : String) : FormatWork m Verdict := do
  let source ← (readDocument path : Work m _)
  match ← (judge settings path source : Work m _) with
  | .error fault => (report isPlain path fault : m _); return .faulty
  | .ok document =>
    let formatted ← layOut document
    if formatted = source then
      if destination = .output then (Host.print formatted : m _)
      return .fine
    else (deliver isPlain destination path formatted : Work m _)

/-- Formats documents; says whether all is as it should be. -/
def formatPaths (chosen : Option String) (isPlain : Bool) (paths : List String)
    (destination : Destination) (indentSize : Option Nat) : Work m Bool := do
  let files ← documents paths
  let found ← obtainSettings chosen paths
  let settings := indentSize.elim found found.withIndentSize
  if files.isEmpty then
    (reportNothing : m _)
    return true
  let (verdicts, _) ←
    (files.mapM (formatDocument settings isPlain destination)).run settings.freshFormatter
  let isFine := verdicts.all (· = .fine)
  if isFine ∧ destination = .nowhere then
    (Host.printLine (Style.success.mark isPlain "✓" ++ " " ++ toString files.length ++
      " documents are formatted correctly") : m _)
  return isFine

end Command
end GrammarBook
