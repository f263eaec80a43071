import GrammarBook.Walk.Follower

namespace GrammarBook

/-!
# Visitors

How a follower is taken through each kind of node: it is shown that the node is entered, then what
stands in the node, in the order in which the production is written, and then that the node is left.
The newlines of the source are not part of a document, so a walk does not meet them. The first event
at which the follower stops ends the walk; nothing is left then that had been entered.
-/

open Walk

/-- Takes a follower through the members of a list, from the given index on. -/
def Walk.inTurn {σ α : Type} (size : Nat) (one : Rank → α → Follow σ Unit) :
    Nat → List α → Follow σ Unit
  | _, [] => pure ()
  | index, member :: others => do
    one ⟨index, size⟩ member
    inTurn size one (index + 1) others

section Visiting

variable {σ : Type} (visit : Event → Follow σ Unit)

/-! ## Cardinalities and names -/

def Limit.walk (limit : Limit) : Follow σ Unit := do
  visit (.enter (.limit limit) none)
  visit (mark "..")
  if let some number := limit.maximum then
    visit (.leaf .number number)
  visit (.leave (.limit limit) none)

def Constraint.walk (constraint : Constraint) : Follow σ Unit := do
  visit (.enter (.constrained constraint) none)
  visit (mark "\x7b")
  visit (.leaf .number constraint.minimum)
  if let some limit := constraint.limit then
    limit.walk visit
  visit (mark "\x7d")
  visit (.leave (.constrained constraint) none)

def Cardinality.walk (cardinality : Cardinality) : Follow σ Unit := do
  visit (.enter (.cardinality cardinality) none)
  match cardinality with
  | .constrained constraint => constraint.walk visit
  | .quantified text => visit (.leaf .quantified text)
  visit (.leave (.cardinality cardinality) none)

def Identifier.walk (identifier : Identifier) : Follow σ Unit := do
  visit (.enter (.identifier identifier) none)
  match identifier with
  | .lower name => visit (.leaf .lowercase name)
  | .upper name => visit (.leaf .uppercase name)
  visit (.leave (.identifier identifier) none)

/-! ## Rules -/

def Reference.walk (reference : Reference) : Follow σ Unit := do
  visit (.enter (.reference reference) none)
  reference.identifier.walk visit
  if let some cardinality := reference.cardinality then
    cardinality.walk visit
  visit (.leave (.reference reference) none)

mutual

def Term.walk (rank : Rank) : Term → Follow σ Unit
  | .reference use => do
    visit (.enter (.term (.reference use)) (some rank))
    use.walk visit
    visit (.leave (.term (.reference use)) (some rank))
  | .bracket terms cardinality => do
    visit (.enter (.term (.bracket terms cardinality)) (some rank))
    visit (.enter (.bracket terms cardinality) none)
    visit (mark "(")
    Term.walkFrom terms.length 1 terms
    visit (mark ")")
    if let some cardinality := cardinality then
      cardinality.walk visit
    visit (.leave (.bracket terms cardinality) none)
    visit (.leave (.term (.bracket terms cardinality)) (some rank))
  | .literal text => do
    visit (.enter (.term (.literal text)) (some rank))
    visit (.leaf .literal text)
    visit (.leave (.term (.literal text)) (some rank))

def Term.walkFrom (size : Nat) : Nat → List Term → Follow σ Unit
  | _, [] => pure ()
  | index, term :: others => do
    Term.walk ⟨index, size⟩ term
    Term.walkFrom size (index + 1) others

end

def Line.walk (rank : Rank) (line : Line) : Follow σ Unit := do
  visit (.enter (.line line) (some rank))
  visit (mark "-")
  line.identifier.walk visit
  if let some note := line.note then
    visit (.leaf .note note)
  visit (.leave (.line line) (some rank))

def Definition.walkMultiline (lines : List Line) : Follow σ Unit := do
  visit (.enter (.multiline lines) none)
  inTurn lines.length (Line.walk visit) 1 lines
  visit (.leave (.multiline lines) none)

def Definition.walkInlined (terms : List Term) (note : Option String) : Follow σ Unit := do
  visit (.enter (.inlined terms note) none)
  Term.walkFrom visit terms.length 1 terms
  if let some note := note then
    visit (.leaf .note note)
  visit (.leave (.inlined terms note) none)

def Definition.walk (definition : Definition) : Follow σ Unit := do
  visit (.enter (.definition definition) none)
  match definition with
  | .multiline lines => Definition.walkMultiline visit lines
  | .inlined terms note => Definition.walkInlined visit terms note
  visit (.leave (.definition definition) none)

def Rule.walk (rank : Rank) (rule : Rule) : Follow σ Unit := do
  visit (.enter (.rule rule) (some rank))
  visit (.leaf .uppercase rule.name)
  visit (mark ":")
  rule.definition.walk visit
  visit (.leave (.rule rule) (some rank))

/-! ## Expressions -/

def Bounded.walkExtent (glyph : String) : Follow σ Unit := do
  visit (.enter (.extent glyph) none)
  visit (mark "..")
  visit (.leaf .glyph glyph)
  visit (.leave (.extent glyph) none)

def Bounded.walk (bounded : Bounded) : Follow σ Unit := do
  visit (.enter (.bounded bounded) none)
  visit (.leaf .glyph bounded.glyph)
  if let some last := bounded.extent then
    Bounded.walkExtent visit last
  visit (.leave (.bounded bounded) none)

def Character.walk (rank : Rank) (character : Character) : Follow σ Unit := do
  visit (.enter (.character character) (some rank))
  match character with
  | .bounded range => range.walk visit
  | .intrinsic name => visit (.leaf .intrinsic name)
  visit (.leave (.character character) (some rank))

def Filter.walk (filter : Filter) : Follow σ Unit := do
  visit (.enter (.filter filter) none)
  if let some excluded := filter.excluded then
    visit (.leaf .excluded excluded)
  visit (mark "[")
  inTurn filter.characters.length (Character.walk visit) 1 filter.characters
  visit (mark "]")
  visit (.leave (.filter filter) none)

def Atom.walk (atom : Atom) : Follow σ Unit := do
  visit (.enter (.text atom) none)
  match atom with
  | .bounded range => range.walk visit
  | .intrinsic name => visit (.leaf .intrinsic name)
  | .literal text => visit (.leaf .literal text)
  | .lowercase name => visit (.leaf .lowercase name)
  visit (.leave (.text atom) none)

mutual

def Pattern.walk : Pattern → Follow σ Unit
  | .mk first alternatives => do
    visit (.enter (.pattern (.mk first alternatives)) none)
    Sequence.walk first
    Sequence.walkAlternatives alternatives.length 1 alternatives
    visit (.leave (.pattern (.mk first alternatives)) none)

/-- Through alternatives, from the given index on. -/
def Sequence.walkAlternatives (size : Nat) : Nat → List Sequence → Follow σ Unit
  | _, [] => pure ()
  | index, sequence :: others => do
    visit (.enter (.alternative sequence) (some ⟨index, size⟩))
    visit (mark "|")
    Sequence.walk sequence
    visit (.leave (.alternative sequence) (some ⟨index, size⟩))
    Sequence.walkAlternatives size (index + 1) others

def Sequence.walk : Sequence → Follow σ Unit
  | .mk repetitions => do
    visit (.enter (.sequence (.mk repetitions)) none)
    Repetition.walkFrom repetitions.length 1 repetitions
    visit (.leave (.sequence (.mk repetitions)) none)

def Repetition.walkFrom (size : Nat) : Nat → List Repetition → Follow σ Unit
  | _, [] => pure ()
  | index, repetition :: others => do
    Repetition.walk ⟨index, size⟩ repetition
    Repetition.walkFrom size (index + 1) others

def Repetition.walk (rank : Rank) : Repetition → Follow σ Unit
  | .mk element cardinality => do
    visit (.enter (.repetition (.mk element cardinality)) (some rank))
    Element.walk element
    if let some cardinality := cardinality then
      cardinality.walk visit
    visit (.leave (.repetition (.mk element cardinality)) (some rank))

def Element.walk : Element → Follow σ Unit
  | .group pattern => do
    visit (.enter (.element (.group pattern)) none)
    visit (.enter (.group pattern) none)
    visit (mark "(")
    Pattern.walk pattern
    visit (mark ")")
    visit (.leave (.group pattern) none)
    visit (.leave (.element (.group pattern)) none)
  | .filter filter => do
    visit (.enter (.element (.filter filter)) none)
    filter.walk visit
    visit (.leave (.element (.filter filter)) none)
  | .atom atom => do
    visit (.enter (.element (.atom atom)) none)
    atom.walk visit
    visit (.leave (.element (.atom atom)) none)

end

def Expression.walk (rank : Rank) (expression : Expression) : Follow σ Unit := do
  visit (.enter (.expression expression) (some rank))
  visit (.leaf .lowercase expression.name)
  visit (mark ":")
  expression.pattern.walk visit
  if let some note := expression.note then
    visit (.leaf .note note)
  visit (.leave (.expression expression) (some rank))

/-! ## Documents -/

def Document.walkNotice (notice : String) : Follow σ Unit := do
  visit (.enter (.notice notice) none)
  visit (.leaf .comment notice)
  visit (.leave (.notice notice) none)

/-- Takes a follower through a whole document. -/
def Document.walk (document : Document) : Follow σ Unit := do
  visit (.enter (.document document) none)
  Document.walkNotice visit document.notice
  visit (.leaf .comment document.leading)
  inTurn document.rules.length (Rule.walk visit) 1 document.rules
  visit (.leaf .comment document.trailing)
  inTurn document.expressions.length (Expression.walk visit) 1 document.expressions
  visit (.leave (.document document) none)

end Visiting

namespace Walk

/-! ## Recording -/

/-- A follower that keeps the events it was shown, the latest first, and stops the walk after
as many events as remain, if it is to stop at all. -/
structure Recorder where
  recorded : List Event
  remaining : Option Nat

/-- A recorder that has been shown nothing and stops at the event with the given number. -/
def Recorder.new (stopAt : Option Nat) : Recorder := ⟨[], stopAt⟩

def stopped : Violation := .stated "stopped"

def Recorder.record (event : Event) : Follow Recorder Unit := do
  let before ← get
  set (Recorder.mk (event :: before.recorded) (before.remaining.map (· - 1)))
  if before.remaining = some 1 then stop stopped

/-- The events of a document up to the one at which the recording stops, with the fault if it
stops. -/
def Recorder.transcript (document : Document) (stopAt : Option Nat) :
    Except Fault Unit × List Event :=
  let (result, recorder) := (document.walk Recorder.record).runOn (Recorder.new stopAt)
  (result, recorder.recorded.reverse)

/-- A follower that takes no notice of what it is shown. -/
def ignore (_event : Event) : Follow Unit Unit := pure ()

end Walk
end GrammarBook
