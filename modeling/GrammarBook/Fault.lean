import GrammarBook.Token.Basic

namespace GrammarBook

/-!
# Faults

Everything that can go wrong, by cause. The wording of each cause stands in one place. Faults of a
document can be told apart from those of its surroundings: after the former one may go on with the
next document.
-/

/-- What a document that can be read may still violate. -/
inductive Violation where
  | misspelled (kind : Kind) (text : String)
  | excludesAny
  | ruleRepeated (name : String)
  | expressionRepeated (name : String)
  | ruleUndefined (name : String)
  | expressionUndefined (name : String)
  | rangeDecreasing (first last : String)
  | rangeNotGlyphs (first last : String)
  | countDecreasing (minimum maximum : String)
  | countUnusable (minimum maximum : String)
  | noRules
  | glyphMalformed (glyph : String)
  | intrinsicUnknown (name : String)
  | circular (names : List String)
  | stated (text : String)
  deriving DecidableEq, Repr

/-- A constraint with both its counts, as it stands in a document. -/
def constraintText (minimum maximum : String) : String :=
  "\x7b" ++ minimum ++ ".." ++ maximum ++ "\x7d"

def Violation.message : Violation → String
  | misspelled kind text =>
    "The " ++ kind.name ++ " " ++ Text.quote text ++ " does not match the " ++ kind.name ++
      " token pattern."
  | excludesAny => "The filter excludes ANY and so matches no character."
  | ruleRepeated name => "The rule " ++ name ++ " is defined more than once."
  | expressionRepeated name => "The expression " ++ name ++ " is defined more than once."
  | ruleUndefined name => "The rule " ++ name ++ " is referenced but never defined."
  | expressionUndefined name => "The expression " ++ name ++ " is referenced but never defined."
  | rangeDecreasing first last =>
    "The range " ++ first ++ ".." ++ last ++ " is in decreasing order."
  | rangeNotGlyphs first last => "The range " ++ first ++ ".." ++ last ++ " is not made of glyphs."
  | countDecreasing minimum maximum =>
    "The constraint " ++ constraintText minimum maximum ++ " has a minimum above its maximum."
  | countUnusable minimum maximum =>
    "The constraint " ++ constraintText minimum maximum ++ " has an unusable count."
  | noRules => "The syntax defines no rules."
  | glyphMalformed glyph => "The glyph " ++ glyph ++ " does not quote one character."
  | intrinsicUnknown name => "The intrinsic " ++ name ++ " is unknown."
  | circular names => "Circular expression reference: " ++ " → ".intercalate names
  | stated text => text

/-- What keeps a file from being read or written. -/
inductive FileProblem where
  | missing
  | directory
  | notDirectory
  | notText
  | denied
  | stated (text : String)
  deriving DecidableEq, Repr

def FileProblem.message : FileProblem → String
  | missing => "No such file or directory (os error 2)"
  | directory => "Is a directory (os error 21)"
  | notDirectory => "Not a directory (os error 20)"
  | notText => "stream did not contain valid UTF-8"
  | denied => "Permission denied (os error 13)"
  | stated text => text

/-- What can be wrong with settings. -/
inductive SettingsProblem where
  | noCapacity
  | noDelimiterName
  | unknownExtension (fileName : String)
  | malformed (format : String)
  | absent (path : String)
  | invalidStart (problem : FileProblem)
  | stated (text : String)
  deriving DecidableEq, Repr

def SettingsProblem.message : SettingsProblem → String
  | noCapacity => "scanner.queueCapacity must be at least 1"
  | noDelimiterName => "analyzer.delimiterName must not be empty"
  | unknownExtension fileName =>
    "Unsupported file extension for '" ++ fileName ++
      "' (expected .toml, .yaml, .yml, or .json)"
  | malformed format => "The settings are not valid " ++ format
  | absent path => "Config file not found: " ++ path
  | invalidStart problem => "Invalid path: " ++ problem.message
  | stated text => text

/-- A state that the tools themselves exclude. -/
inductive Breach where
  | streamEnded
  | notCompiled (target name : String)
  | stated (text : String)
  deriving DecidableEq, Repr

def Breach.message : Breach → String
  | streamEnded => "The token stream ended before the end of the input."
  | notCompiled target name =>
    "The expression " ++ target ++ " was not compiled before " ++ name ++ "."
  | stated text => text

/-- Why a piece of work ended without a result. -/
inductive Fault where
  | lexical (token : Token) (excerpt : String)
  | syntactic (token : Token) (production expected excerpt : String)
  | semantic (violation : Violation)
  | settings (problem : SettingsProblem)
  | unloadable (path : String) (cause : Fault)
  | file (path : String) (problem : FileProblem)
  | internal (breach : Breach)
  deriving DecidableEq, Repr

namespace Fault

/-- The groups that a caller tells apart. -/
inductive Group where
  | lexical
  | syntactic
  | semantic
  | settings
  | file
  | internal
  deriving DecidableEq, Repr

def group : Fault → Group
  | lexical .. => .lexical
  | syntactic .. => .syntactic
  | semantic .. => .semantic
  | settings .. | unloadable .. => .settings
  | file .. => .file
  | internal .. => .internal

def message : Fault → String
  | lexical token excerpt =>
    "Lexical error: no token matches " ++ token.describe ++ "\n" ++ excerpt
  | syntactic token production expected excerpt =>
    "Syntax error: unexpected " ++ token.describe ++ " while parsing " ++ production ++ "\n" ++
      excerpt ++ "\nExpected:\n" ++ expected
  | semantic violation => "Semantic error: " ++ violation.message
  | settings problem => "Configuration error: " ++ problem.message
  | unloadable path cause =>
    "Configuration error: Failed to load config from '" ++ path ++ "': " ++ cause.message
  | file path problem => "IO error for path '" ++ path ++ "': " ++ problem.message
  | internal breach => "Internal error: " ++ breach.message

/-- A fault of the document at hand, after which other documents may still be worked on. -/
def isRecoverable (fault : Fault) : Bool :=
  match fault.group with
  | .lexical | .syntactic | .semantic => true
  | .settings | .file | .internal => false

/-- The token at which a document could not be scanned or read. -/
def token? : Fault → Option Token
  | lexical token _ | syntactic token .. => some token
  | _ => none

/-- The production that was being read. -/
def production? : Fault → Option String
  | syntactic _ production .. => some production
  | _ => none

/-- Takes the faults of the document into the result and leaves the others as faults. -/
def separate {α : Type} : Except Fault α → Except Fault (Except Fault α)
  | .ok value => .ok (.ok value)
  | .error fault => if fault.isRecoverable then .ok (.error fault) else .error fault

end Fault
end GrammarBook
