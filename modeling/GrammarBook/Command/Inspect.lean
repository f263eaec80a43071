import GrammarBook.Analysis.Analyzer
import GrammarBook.Command.Documents
import GrammarBook.Text.Padding
import GrammarBook.Token.Scan

namespace GrammarBook
namespace Command

/-!
# Inspecting documents

Validating documents, showing what an analysis yields, and listing tokens. None of these changes a
file.
-/

variable {m : Type → Type} [Monad m] [Host m]

/-- Validates one document; says whether it is valid. -/
def validateDocument (settings : Settings) (isPlain : Bool) (path : String) : Work m Bool := do
  let source ← readDocument path
  match ← judge settings path source with
  | .error fault => (report isPlain path fault : m _); return false
  | .ok _ =>
    (Host.printLine (Style.success.mark isPlain "✓" ++ " " ++ path) : m _)
    return true

/-- Validates documents; says whether all are valid. -/
def validatePaths (chosen : Option String) (isPlain : Bool) (paths : List String) :
    Work m Bool := do
  let files ← documents paths
  let settings ← obtainSettings chosen paths
  if files.isEmpty then
    (reportNothing : m _)
    return true
  let verdicts ← files.mapM (validateDocument settings isPlain)
  (Host.printLine (toString files.length ++ " documents checked, " ++
    toString (verdicts.count false) ++ " invalid") : m _)
  return verdicts.all id

/-- An attribute in a listing; a star marks a plural one. -/
def attributeText (entry : Attribute) : String :=
  if entry.isPlural then entry.name ++ "*" else entry.name

def listingLine (name content : String) : String := "  " ++ name ++ ": " ++ content

/-- An analysis as a listing, line by line. -/
def listing (isPlain : Bool) (analysis : Analysis) : List String :=
  [Style.heading.mark isPlain "Syntax:" ++ " " ++ analysis.documentName,
    "", Style.heading.mark isPlain "Rules:"] ++
  analysis.references.entries.map (fun entry =>
    listingLine entry.1 (", ".intercalate (entry.2.map attributeText))) ++
  ["", Style.heading.mark isPlain "Expressions:"] ++
  analysis.regexes.entries.map fun entry => listingLine entry.1 entry.2

/-- Analyses a document that has to be valid. -/
def analyzePath (chosen : Option String) (isPlain : Bool) (path : String) (asJson : Bool) :
    Work m Bool := do
  let source ← readDocument path
  let settings ← obtainSettings chosen [path]
  match readValid settings source with
  | .error fault => throw (.invalid path fault)
  | .ok document =>
    match (settings.freshAnalyzer.analyze document).1 with
    | .error fault => throw (.faulty fault)
    | .ok analysis =>
      if asJson then (Host.printLine analysis.toJson.pretty : m _)
      else (listing isPlain analysis).forM fun line => (Host.printLine line : m _)
      return true

/-- A token in a listing: where it stands, its kind and its text. -/
def tokenLine (token : Token) : String :=
  Text.alignRight 4 (toString token.place.line) ++ ":" ++
    Text.alignLeft 3 (toString token.place.position) ++ " " ++
    Text.alignLeft 10 token.kind.name ++ " " ++ Text.quote token.text

/-- Lists the tokens of a text, valid or not. -/
def listTokens (path : String) : Work m Bool := do
  let source ← readDocument path
  (Token.scan source).forM fun token => (Host.printLine (tokenLine token) : m _)
  return true

end Command
end GrammarBook
