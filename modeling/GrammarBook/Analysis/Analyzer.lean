import GrammarBook.Analysis.Basic
import GrammarBook.Analysis.Delimiter
import GrammarBook.Analysis.Resolution
import GrammarBook.Document.Plurality
import GrammarBook.Reading.Parser
import GrammarBook.Token.Value
import GrammarBook.Validator

namespace GrammarBook

/-!
# Analyzers

An analyzer gathers its findings while it is shown the walk through a document. In a rule it notes
every reference with its plurality, which the innermost bracket that has a cardinality decides
before the reference's own. In an expression it writes fragments of a regular expression: filters
become classes, groups become groups that are not remembered, and a repetition that contains ANY
takes as little as it can. An analyzer can be used again: it starts every document afresh, however
its last walk ended.
-/

/-- What an analyzer has found. The innermost bracket and the innermost repetition come first. -/
structure Findings where
  documentName : Option String := none
  notice : String := ""
  comment : String := ""
  ruleNames : List String := []
  expressionNames : List String := []
  plurals : NameSet := .empty
  references : NameTable (List Attribute) := .empty
  literals : NameSet := .empty
  patterns : FragmentTable := .empty
  occurrences : List Occurrence := []
  brackets : List (Option Bool) := []
  inExpression : Bool := false
  inFilter : Bool := false
  fragments : List Fragment := []
  wildcards : List Bool := []

/-- An analyzer with the name for the synthesized expression and its findings so far. -/
structure Analyzer where
  delimiterName : String := Delimiter.defaultName
  findings : Findings := {}

namespace Analyzer

open Walk

/-- Changes the findings. -/
def note (change : Findings → Findings) : Follow Analyzer Unit :=
  modify fun analyzer => { analyzer with findings := change analyzer.findings }

def addFragment (fragment : Fragment) (findings : Findings) : Findings :=
  { findings with fragments := findings.fragments ++ [fragment] }

/-- Adds a piece of regular expression to the current expression. -/
def push (text : String) : Follow Analyzer Unit := note (addFragment (.text text))

/-- Marks the innermost repetition as containing a wildcard. -/
def markWildcard (findings : Findings) : Findings :=
  match findings.wildcards with
  | [] => findings
  | _ :: outer => { findings with wildcards := true :: outer }

def writeGlyph (glyph : String) : Follow Analyzer Unit := do
  if (← get).findings.inExpression then
    match Token.glyphCharacter? glyph with
    | some c => push (Regex.escape (String.singleton c))
    | none => stop (.glyphMalformed glyph)

def writeIntrinsic (name : String) : Follow Analyzer Unit := do
  match Regex.intrinsic? name (← get).findings.inFilter with
  | some regex =>
    if name = "ANY" then note markWildcard
    push regex
  | none => stop (.intrinsicUnknown name)

/-- Writes a literal of an expression, or keeps one of a rule. -/
def writeLiteral (literal : String) : Follow Analyzer Unit := do
  let text := Token.literalText literal
  if (← get).findings.inExpression then push (Regex.escape text)
  else note fun findings => { findings with literals := findings.literals.insert text }

def visitLeaf (kind : Kind) (text : String) : Follow Analyzer Unit := do
  match kind with
  | .glyph => writeGlyph text
  | .intrinsic => writeIntrinsic text
  | .literal => writeLiteral text
  | .quantified => if (← get).findings.inExpression then push text
  | _ => pure ()

def startRule (name : String) (findings : Findings) : Findings :=
  { findings with
    documentName := findings.documentName.or (some name)
    ruleNames := findings.ruleNames ++ [name]
    occurrences := [] }

/-- The end of a rule, whose occurrences become attributes. -/
def endRule (rule : Rule) (findings : Findings) : Findings :=
  let occurrences :=
    match rule.definition with
    | .inlined .. => Occurrence.consolidate findings.occurrences
    | .multiline _ => findings.occurrences
  { findings with
    occurrences := []
    references := findings.references.put rule.name (Occurrence.attributes occurrences) }

/-- The plurality of a reference in its place. -/
def pluralityOf (brackets : List (Option Bool)) (reference : Reference) : Bool :=
  (brackets.findSome? id).getD (reference.cardinality.any Cardinality.isPlural)

def addOccurrence (occurrence : Occurrence) (findings : Findings) : Findings :=
  { findings with
    plurals :=
      if occurrence.isPlural then findings.plurals.insert occurrence.identifier.name
      else findings.plurals
    occurrences := findings.occurrences ++ [occurrence] }

def startExpression (name : String) (findings : Findings) : Findings :=
  { findings with
    inExpression := true
    expressionNames := findings.expressionNames ++ [name]
    fragments := [.text Regex.groupStart] }

/-- The end of an expression, whose fragments are complete. -/
def endExpression (name : String) (findings : Findings) : Findings :=
  { findings with
    patterns := findings.patterns.put name (findings.fragments ++ [.text ")"])
    fragments := []
    inExpression := false }

/-- The end of a repetition. A wildcard in it is one of the repetition around it as well, and makes
its quantifier a lazy one. -/
def endRepetition (repetition : Repetition) (findings : Findings) : Findings :=
  match findings.wildcards with
  | [] => findings
  | false :: outer => { findings with wildcards := outer }
  | true :: outer =>
    let findings := markWildcard { findings with wildcards := outer }
    if repetition.cardinality.isSome then addFragment (.text "?") findings else findings

def quantifier (constraint : Constraint) : String :=
  Regex.countQuantifier constraint.minimum (constraint.limit.map (·.maximum))

/-- A range of glyphs outside a filter, which needs a class of its own. -/
def needsClass (bounded : Bounded) (findings : Findings) : Bool :=
  !findings.inFilter && bounded.extent.isSome

/-- Takes notice of a node before its parts. -/
def opening (node : Node) : Follow Analyzer Unit := do
  match node with
  | .document document =>
    note fun findings =>
      { findings with notice := document.notice, comment := document.leading }
  | .rule rule => note (startRule rule.name)
  | .line line => note (addOccurrence ⟨line.identifier, false⟩)
  | .reference reference =>
    note fun findings =>
      addOccurrence ⟨reference.identifier, pluralityOf findings.brackets reference⟩ findings
  | .bracket _ cardinality =>
    note fun findings =>
      { findings with brackets := cardinality.map Cardinality.isPlural :: findings.brackets }
  | .expression expression => note (startExpression expression.name)
  | .alternative _ => push "|"
  | .repetition _ => note fun findings => { findings with wildcards := false :: findings.wildcards }
  | .group _ => push Regex.groupStart
  | .filter filter =>
    note fun findings => { findings with inFilter := true }
    push (if filter.isExcluded then "[^" else "[")
  | .bounded bounded => if needsClass bounded (← get).findings then push "["
  | .extent _ => push "-"
  | .text (.lowercase name) => note (addFragment (.reference name))
  | _ => pure ()

/-- Takes notice of a node after its parts. -/
def closing (node : Node) : Follow Analyzer Unit := do
  match node with
  | .rule rule => note (endRule rule)
  | .bracket .. => note fun findings => { findings with brackets := findings.brackets.drop 1 }
  | .expression expression => note (endExpression expression.name)
  | .repetition repetition => note (endRepetition repetition)
  | .group _ => push ")"
  | .filter _ =>
    push "]"
    note fun findings => { findings with inFilter := false }
  | .bounded bounded => if needsClass bounded (← get).findings then push "]"
  | .constrained constraint => if (← get).findings.inExpression then push (quantifier constraint)
  | _ => pure ()

def visit : Event → Follow Analyzer Unit
  | .leaf kind text => visitLeaf kind text
  | .enter node _ => opening node
  | .leave node _ => closing node

/-- The findings on a whole document as an analysis. The synthesized expression is added where
there are literals and no expression of its name; the regular expressions are then put in order. -/
def conclude (delimiterName : String) (findings : Findings) : Except Fault Analysis := do
  let some documentName := findings.documentName | throw (.semantic .noRules)
  let regexes ← findings.patterns.resolve
  let adds := !regexes.contains delimiterName && !findings.literals.isEmpty
  pure
    { documentName
      notice := findings.notice
      comment := findings.comment
      ruleNames := findings.ruleNames
      expressionNames :=
        if adds then (findings.expressionNames ++ [delimiterName]).mergeSort (· ≤ ·)
        else findings.expressionNames
      plurals := findings.plurals
      references := findings.references
      regexes :=
        if adds then (regexes.put delimiterName (Delimiter.regex findings.literals)).sorted
        else regexes }

/-- Work that analyzes a document from the start. -/
def analyzing (document : Document) : Follow Analyzer Analysis := do
  modify fun analyzer => { analyzer with findings := {} }
  document.walk visit
  let analyzer ← get
  set { analyzer with findings := {} }
  match conclude analyzer.delimiterName analyzer.findings with
  | .ok analysis => pure analysis
  | .error fault => throw fault

/-- The analysis of a document, with the analyzer to go on with. -/
def analyze (analyzer : Analyzer) (document : Document) : Except Fault Analysis × Analyzer :=
  (analyzing document).runOn analyzer

end Analyzer

/-- The analysis of a source that can be read and is valid. -/
def analyzeSource (source : String) : Except Fault Analysis := do
  let document ← ({} : Parser).parse source
  document.validate
  (({} : Analyzer).analyze document).1

end GrammarBook
