import GrammarBook.Analysis.Analyzer
import GrammarBook.Layout
import GrammarBook.Reading.Parser

namespace GrammarBook

/-!
# Settings

Every setting may be left out, and so may every section; what is left out has a default. Settings
that no tool could work with are refused.
-/

/-- The section of the scanner. -/
structure ScannerSettings where
  queueCapacity : Option Nat := none
  deriving DecidableEq, Repr

/-- The section of the formatter. -/
structure FormatterSettings where
  indentSize : Option Nat := none
  deriving DecidableEq, Repr

/-- The section of the analyzer. -/
structure AnalyzerSettings where
  delimiterName : Option String := none
  deriving DecidableEq, Repr

/-- All settings. -/
structure Settings where
  scanner : Option ScannerSettings := none
  formatter : Option FormatterSettings := none
  analyzer : Option AnalyzerSettings := none
  deriving DecidableEq, Repr

namespace Settings

/-- The number of tokens a queue holds. -/
def queueCapacity (settings : Settings) : Nat :=
  (settings.scanner.bind (·.queueCapacity)).getD defaultQueueCapacity

def indentSize (settings : Settings) : Nat :=
  (settings.formatter.bind (·.indentSize)).getD ({} : Formatter).indentSize

/-- The name of the synthesized expression. -/
def delimiterName (settings : Settings) : String :=
  (settings.analyzer.bind (·.delimiterName)).getD Delimiter.defaultName

/-- Refuses a queue that holds nothing, then an expression without a name. -/
def check (settings : Settings) : Except SettingsProblem Unit :=
  if settings.queueCapacity = 0 then .error .noCapacity
  else if settings.delimiterName = "" then .error .noDelimiterName
  else .ok ()

def withIndentSize (settings : Settings) (indentSize : Nat) : Settings :=
  { settings with formatter := some ⟨some indentSize⟩ }

def parser (settings : Settings) : Parser := .withQueueCapacity settings.queueCapacity

def freshFormatter (settings : Settings) : Formatter := { indentSize := settings.indentSize }

def freshAnalyzer (settings : Settings) : Analyzer := { delimiterName := settings.delimiterName }

/-- A section with one field as a JSON object. -/
def sectionToJson (name : String) (value : Json) : Json := .fields [(name, value)]

/-- Settings as a JSON object; what is left out is null. -/
def toJson (settings : Settings) : Json :=
  .fields
    [("scanner", Json.orNull
        (fun part => sectionToJson "queueCapacity" (Json.orNull .natural part.queueCapacity))
        settings.scanner),
      ("formatter", Json.orNull
        (fun part => sectionToJson "indentSize" (Json.orNull .natural part.indentSize))
        settings.formatter),
      ("analyzer", Json.orNull
        (fun part => sectionToJson "delimiterName" (Json.orNull .text part.delimiterName))
        settings.analyzer)]

end Settings
end GrammarBook
