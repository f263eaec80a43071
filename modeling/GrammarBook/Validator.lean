import GrammarBook.Names.NameSet
import GrammarBook.Text.Count
import GrammarBook.Token.Spelling
import GrammarBook.Token.Value
import GrammarBook.Walk.Visitor

namespace GrammarBook

/-!
# Validation

A validator is shown the walk through a document and stops it at the first violation. Leaves have
to be spelled as tokens of their kind, names may be defined once, ranges and counts may not
decrease, and an excluded filter may not name every character. Which names are referenced but not
defined is known at the end of the walk. A validator can be used again: it starts every document
afresh, however its last walk ended.
-/

/-- What a validator has seen: the names defined and referenced, and whether it stands in an
excluded filter. -/
structure Validator where
  rules : List String := []
  expressions : List String := []
  referencedRules : NameSet := .empty
  referencedExpressions : NameSet := .empty
  excluding : Bool := false

namespace Validator

open Walk

/-- Stops unless the text is a token of the kind. -/
def checkSpelling (kind : Kind) (text : String) : Follow Validator Unit :=
  if kind.accepts text then pure () else stop (.misspelled kind text)

def checkLeaf (kind : Kind) (text : String) : Follow Validator Unit := do
  checkSpelling kind text
  if kind = .intrinsic ∧ text = "ANY" ∧ (← get).excluding then stop .excludesAny

def defineRule (name : String) : Follow Validator Unit := do
  if name ∈ (← get).rules then stop (.ruleRepeated name)
  modify fun validator => { validator with rules := name :: validator.rules }

def defineExpression (name : String) : Follow Validator Unit := do
  if name ∈ (← get).expressions then stop (.expressionRepeated name)
  modify fun validator => { validator with expressions := name :: validator.expressions }

def referToExpression (name : String) : Follow Validator Unit :=
  modify fun validator =>
    { validator with referencedExpressions := validator.referencedExpressions.insert name }

def referToRule (name : String) : Follow Validator Unit :=
  modify fun validator =>
    { validator with referencedRules := validator.referencedRules.insert name }

/-- The violation of a range of glyphs that decreases or is not made of glyphs. -/
def rangeViolation? (first last : String) : Option Violation :=
  match Token.glyphCharacter? first, Token.glyphCharacter? last with
  | some low, some high => if low ≤ high then none else some (.rangeDecreasing first last)
  | _, _ => some (.rangeNotGlyphs first last)

/-- The violation of a range of counts that decreases or has a count that cannot be read. -/
def countViolation? (minimum maximum : String) : Option Violation :=
  match Text.readCount minimum, Text.readCount maximum with
  | some low, some high => if low ≤ high then none else some (.countDecreasing minimum maximum)
  | _, _ => some (.countUnusable minimum maximum)

/-- Stops with the violation if there is one. -/
def stopWith (violation : Option Violation) : Follow Validator Unit :=
  match violation with
  | some violation => stop violation
  | none => pure ()

/-- Checks a node before its parts. -/
def opening : Node → Follow Validator Unit
  | .rule rule => defineRule rule.name
  | .expression expression => defineExpression expression.name
  | .identifier (.upper name) => referToRule name
  | .identifier (.lower name) => referToExpression name
  | .text (.lowercase name) => referToExpression name
  | .filter filter => modify fun validator => { validator with excluding := filter.isExcluded }
  | .bounded bounded => stopWith (bounded.extent.bind (rangeViolation? bounded.glyph))
  | .constrained constraint =>
    stopWith ((constraint.limit.bind (·.maximum)).bind (countViolation? constraint.minimum))
  | _ => pure ()

/-- Stops if a name was referenced and never defined; rules come before expressions, and among the
names of either the least comes first. -/
def checkReferences : Follow Validator Unit := do
  let validator ← get
  stopWith ((validator.referencedRules.firstOutside? validator.rules).map .ruleUndefined)
  stopWith
    ((validator.referencedExpressions.firstOutside? validator.expressions).map .expressionUndefined)

/-- Checks a node after its parts. -/
def closing : Node → Follow Validator Unit
  | .filter _ => modify fun validator => { validator with excluding := false }
  | .document _ => checkReferences
  | _ => pure ()

def visit : Event → Follow Validator Unit
  | .leaf kind text => checkLeaf kind text
  | .enter node _ => opening node
  | .leave node _ => closing node

/-- Work that checks a document from the start. -/
def validating (document : Document) : Follow Validator Unit := do
  set ({} : Validator)
  document.walk visit

/-- The first violation of a document, if it has one, with the validator to go on with. -/
def validate (validator : Validator) (document : Document) : Except Fault Unit × Validator :=
  (validating document).runOn validator

end Validator

/-- The first violation of a document, if it has one. -/
def Document.validate (document : Document) : Except Fault Unit :=
  (({} : Validator).validate document).1

end GrammarBook
