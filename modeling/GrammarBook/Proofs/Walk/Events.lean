import GrammarBook.Walk.Visitor

namespace GrammarBook

/-!
# The events of a walk

What a walk through each kind of node shows, as a list: the follower is shown just these events, one
after another, until it stops at one of them. Whatever is to be known of a walk can be learned from the
list.
-/

namespace Walk

/-- Events between entering and leaving a node. -/
def within (node : Node) (rank : Option Rank) (events : List Event) : List Event :=
  .enter node rank :: (events ++ [.leave node rank])

/-- The events of the members of a list from the given index on. -/
def eachFrom {α : Type} (size : Nat) (events : Rank → α → List Event) : Nat → List α → List Event
  | _, [] => []
  | index, member :: others =>
    events ⟨index, size⟩ member ++ eachFrom size events (index + 1) others

def each {α : Type} (events : Rank → α → List Event) (members : List α) : List Event :=
  eachFrom members.length events 1 members

/-- The leaf of a token that may be missing. -/
def leaf? (kind : Kind) (text : Option String) : List Event :=
  match text with
  | some text => [.leaf kind text]
  | none => []

end Walk

open Walk

def Limit.events (limit : Limit) : List Event :=
  within (.limit limit) none (mark ".." :: leaf? .number limit.maximum)

def Constraint.events (constraint : Constraint) : List Event :=
  within (.constrained constraint) none <|
    mark "\x7b" :: .leaf .number constraint.minimum ::
      ((constraint.limit.elim [] Limit.events) ++ [mark "\x7d"])

def Cardinality.events (cardinality : Cardinality) : List Event :=
  within (.cardinality cardinality) none <|
    match cardinality with
    | .constrained constraint => constraint.events
    | .quantified text => [.leaf .quantified text]

/-- The walk through a cardinality that may be missing. -/
def Cardinality.events? (cardinality : Option Cardinality) : List Event :=
  cardinality.elim [] Cardinality.events

def Identifier.events (identifier : Identifier) : List Event :=
  within (.identifier identifier) none <|
    match identifier with
    | .lower name => [.leaf .lowercase name]
    | .upper name => [.leaf .uppercase name]

def Reference.events (reference : Reference) : List Event :=
  within (.reference reference) none <|
    reference.identifier.events ++ Cardinality.events? reference.cardinality

mutual

def Term.events (rank : Rank) : Term → List Event
  | .reference use => within (.term (.reference use)) (some rank) use.events
  | .bracket terms cardinality =>
    within (.term (.bracket terms cardinality)) (some rank) <|
      within (.bracket terms cardinality) none <|
        mark "(" :: (Term.eventsFrom terms.length 1 terms ++
          mark ")" :: Cardinality.events? cardinality)
  | .literal text => within (.term (.literal text)) (some rank) [.leaf .literal text]

def Term.eventsFrom (size : Nat) : Nat → List Term → List Event
  | _, [] => []
  | index, term :: others =>
    Term.events ⟨index, size⟩ term ++ Term.eventsFrom size (index + 1) others

end

def Line.events (rank : Rank) (line : Line) : List Event :=
  within (.line line) (some rank) <|
    mark "-" :: (line.identifier.events ++ leaf? .note line.note)

def Definition.events (definition : Definition) : List Event :=
  within (.definition definition) none <|
    match definition with
    | .multiline lines => within (.multiline lines) none (each Line.events lines)
    | .inlined terms note =>
      within (.inlined terms note) none <|
        Term.eventsFrom terms.length 1 terms ++ leaf? .note note

def Rule.events (rank : Rank) (rule : Rule) : List Event :=
  within (.rule rule) (some rank) <|
    .leaf .uppercase rule.name :: mark ":" :: rule.definition.events

/-- The walk through the upper end of a range of glyphs. -/
def extentEvents (glyph : String) : List Event :=
  within (.extent glyph) none [mark "..", .leaf .glyph glyph]

def Bounded.events (bounded : Bounded) : List Event :=
  within (.bounded bounded) none <|
    .leaf .glyph bounded.glyph :: bounded.extent.elim [] extentEvents

def Character.events (rank : Rank) (character : Character) : List Event :=
  within (.character character) (some rank) <|
    match character with
    | .bounded range => range.events
    | .intrinsic name => [.leaf .intrinsic name]

def Filter.events (filter : Filter) : List Event :=
  within (.filter filter) none <|
    leaf? .excluded filter.excluded ++
      mark "[" :: (each Character.events filter.characters ++ [mark "]"])

/-- The walk through the smallest piece of a pattern. -/
def Atom.events (atom : Atom) : List Event :=
  within (.text atom) none <|
    match atom with
    | .bounded range => range.events
    | .intrinsic name => [.leaf .intrinsic name]
    | .literal text => [.leaf .literal text]
    | .lowercase name => [.leaf .lowercase name]

mutual

def Pattern.events : Pattern → List Event
  | .mk first alternatives =>
    within (.pattern (.mk first alternatives)) none <|
      Sequence.events first ++ Sequence.alternativeEventsFrom alternatives.length 1 alternatives

/-- The walk through alternatives from the given index on. -/
def Sequence.alternativeEventsFrom (size : Nat) : Nat → List Sequence → List Event
  | _, [] => []
  | index, sequence :: others =>
    within (.alternative sequence) (some ⟨index, size⟩) (mark "|" :: Sequence.events sequence) ++
      Sequence.alternativeEventsFrom size (index + 1) others

def Sequence.events : Sequence → List Event
  | .mk repetitions =>
    within (.sequence (.mk repetitions)) none
      (Repetition.eventsFrom repetitions.length 1 repetitions)

/-- The walk through repetitions from the given index on. -/
def Repetition.eventsFrom (size : Nat) : Nat → List Repetition → List Event
  | _, [] => []
  | index, repetition :: others =>
    Repetition.events ⟨index, size⟩ repetition ++ Repetition.eventsFrom size (index + 1) others

def Repetition.events (rank : Rank) : Repetition → List Event
  | .mk element cardinality =>
    within (.repetition (.mk element cardinality)) (some rank) <|
      Element.events element ++ Cardinality.events? cardinality

def Element.events : Element → List Event
  | .group pattern =>
    within (.element (.group pattern)) none <|
      within (.group pattern) none (mark "(" :: (Pattern.events pattern ++ [mark ")"]))
  | .filter filter => within (.element (.filter filter)) none filter.events
  | .atom atom => within (.element (.atom atom)) none atom.events

end

def Expression.events (rank : Rank) (expression : Expression) : List Event :=
  within (.expression expression) (some rank) <|
    .leaf .lowercase expression.name :: mark ":" ::
      (expression.pattern.events ++ leaf? .note expression.note)

/-- The walk through a document. -/
def Document.events (document : Document) : List Event :=
  within (.document document) none <|
    within (.notice document.notice) none [.leaf .comment document.notice] ++
      .leaf .comment document.leading ::
        (each Rule.events document.rules ++
          .leaf .comment document.trailing :: each Expression.events document.expressions)

/-! ## What a visitor shows -/

section Following

variable {σ : Type} (visit : Event → Follow σ Unit)

/-- Shows the events in their order until one of them stops the walk. -/
def Walk.follow : List Event → Follow σ Unit
  | [] => pure ()
  | event :: events => do
    visit event
    follow events

@[simp] theorem Walk.follow_nil : follow visit [] = pure () := rfl

@[simp] theorem Walk.follow_cons (event : Event) (events : List Event) :
    follow visit (event :: events) = (do visit event; follow visit events) := rfl

@[simp] theorem Walk.follow_append (events later : List Event) :
    follow visit (events ++ later) = (do follow visit events; follow visit later) := by
  induction events with
  | nil => simp
  | cons event events ih => simp [ih]

theorem Walk.follow_within (node : Node) (rank : Option Rank) (events : List Event) :
    follow visit (within node rank events) =
      (do visit (.enter node rank); follow visit events; visit (.leave node rank)) := by
  simp [within]

theorem Walk.inTurn_eq {α : Type} {one : Rank → α → Follow σ Unit}
    {events : Rank → α → List Event}
    (each : ∀ rank member, one rank member = follow visit (events rank member)) (size index : Nat)
    (members : List α) :
    inTurn size one index members = follow visit (eachFrom size events index members) := by
  induction members generalizing index with
  | nil => rfl
  | cons member members ih => rw [inTurn, eachFrom, follow_append, each, ih]

theorem Limit.walk_eq (limit : Limit) : limit.walk visit = follow visit limit.events := by
  rw [Limit.walk, Limit.events, follow_within]
  cases limit.maximum <;> simp [leaf?]

theorem Constraint.walk_eq (constraint : Constraint) :
    constraint.walk visit = follow visit constraint.events := by
  rw [Constraint.walk, Constraint.events, follow_within]
  cases constraint.limit <;> simp [Limit.walk_eq]

theorem Cardinality.walk_eq (cardinality : Cardinality) :
    cardinality.walk visit = follow visit cardinality.events := by
  rw [Cardinality.walk, Cardinality.events.eq_def, follow_within]
  cases cardinality <;> simp [Constraint.walk_eq]

theorem Identifier.walk_eq (identifier : Identifier) :
    identifier.walk visit = follow visit identifier.events := by
  rw [Identifier.walk, Identifier.events.eq_def, follow_within]
  cases identifier <;> simp

theorem Reference.walk_eq (reference : Reference) :
    reference.walk visit = follow visit reference.events := by
  rw [Reference.walk, Reference.events, follow_within]
  cases reference.cardinality <;>
    simp [Identifier.walk_eq, Cardinality.walk_eq, Cardinality.events?]

mutual

theorem Term.walk_eq (rank : Rank) : ∀ term : Term,
    Term.walk visit rank term = follow visit (Term.events rank term)
  | .reference use => by
    rw [Term.walk, Term.events, follow_within, Reference.walk_eq]
  | .bracket terms cardinality => by
    rw [Term.walk, Term.events, follow_within, follow_within, Term.walkFrom_eq]
    cases cardinality <;> simp [Cardinality.walk_eq, Cardinality.events?]
  | .literal text => by
    rw [Term.walk, Term.events, follow_within]
    simp

theorem Term.walkFrom_eq (size : Nat) : ∀ (index : Nat) (terms : List Term),
    Term.walkFrom visit size index terms = follow visit (Term.eventsFrom size index terms)
  | _, [] => by rw [Term.walkFrom, Term.eventsFrom, follow_nil]
  | index, term :: others => by
    rw [Term.walkFrom, Term.eventsFrom, follow_append, Term.walk_eq, Term.walkFrom_eq]

end

theorem Line.walk_eq (rank : Rank) (line : Line) :
    line.walk visit rank = follow visit (line.events rank) := by
  rw [Line.walk, Line.events, follow_within]
  cases line.note <;> simp [Identifier.walk_eq, leaf?]

theorem Definition.walkMultiline_eq (lines : List Line) :
    Definition.walkMultiline visit lines =
      follow visit (within (.multiline lines) none (each Line.events lines)) := by
  rw [Definition.walkMultiline, follow_within, each, inTurn_eq visit (Line.walk_eq visit)]

theorem Definition.walkInlined_eq (terms : List Term) (note : Option String) :
    Definition.walkInlined visit terms note =
      follow visit (within (.inlined terms note) none
        (Term.eventsFrom terms.length 1 terms ++ leaf? .note note)) := by
  rw [Definition.walkInlined, follow_within, Term.walkFrom_eq]
  cases note <;> simp [leaf?]

theorem Definition.walk_eq (definition : Definition) :
    definition.walk visit = follow visit definition.events := by
  rw [Definition.walk, Definition.events.eq_def, follow_within]
  cases definition with
  | multiline lines => rw [← Definition.walkMultiline_eq]
  | inlined terms note => rw [← Definition.walkInlined_eq]

theorem Rule.walk_eq (rank : Rank) (rule : Rule) :
    rule.walk visit rank = follow visit (rule.events rank) := by
  rw [Rule.walk, Rule.events, follow_within]
  simp [Definition.walk_eq]

theorem Bounded.walk_eq (bounded : Bounded) :
    bounded.walk visit = follow visit bounded.events := by
  have extent (last : String) : Bounded.walkExtent visit last = follow visit (extentEvents last) := by
    rw [Bounded.walkExtent, extentEvents, follow_within]
    simp
  rw [Bounded.walk, Bounded.events, follow_within]
  cases bounded.extent <;> simp [extent]

theorem Character.walk_eq (rank : Rank) (character : Character) :
    character.walk visit rank = follow visit (character.events rank) := by
  rw [Character.walk, Character.events.eq_def, follow_within]
  cases character <;> simp [Bounded.walk_eq]

theorem Filter.walk_eq (filter : Filter) : filter.walk visit = follow visit filter.events := by
  rw [Filter.walk, Filter.events, follow_within, inTurn_eq visit (Character.walk_eq visit)]
  cases filter.excluded <;> simp [leaf?, each]

theorem Atom.walk_eq (atom : Atom) : atom.walk visit = follow visit atom.events := by
  rw [Atom.walk, Atom.events.eq_def, follow_within]
  cases atom <;> simp [Bounded.walk_eq]

mutual

theorem Pattern.walk_eq : ∀ pattern : Pattern, pattern.walk visit = follow visit pattern.events
  | .mk first alternatives => by
    rw [Pattern.walk, Pattern.events, follow_within, Sequence.walk_eq, Sequence.walkAlternatives_eq]
    simp

theorem Sequence.walkAlternatives_eq (size : Nat) : ∀ (index : Nat) (sequences : List Sequence),
    Sequence.walkAlternatives visit size index sequences =
      follow visit (Sequence.alternativeEventsFrom size index sequences)
  | _, [] => by rw [Sequence.walkAlternatives, Sequence.alternativeEventsFrom, follow_nil]
  | index, sequence :: others => by
    rw [Sequence.walkAlternatives, Sequence.alternativeEventsFrom, follow_append, follow_within,
      Sequence.walk_eq, Sequence.walkAlternatives_eq]
    simp

theorem Sequence.walk_eq : ∀ sequence : Sequence,
    sequence.walk visit = follow visit sequence.events
  | .mk repetitions => by
    rw [Sequence.walk, Sequence.events, follow_within, Repetition.walkFrom_eq]

theorem Repetition.walkFrom_eq (size : Nat) : ∀ (index : Nat) (repetitions : List Repetition),
    Repetition.walkFrom visit size index repetitions =
      follow visit (Repetition.eventsFrom size index repetitions)
  | _, [] => by rw [Repetition.walkFrom, Repetition.eventsFrom, follow_nil]
  | index, repetition :: others => by
    rw [Repetition.walkFrom, Repetition.eventsFrom, follow_append, Repetition.walk_eq,
      Repetition.walkFrom_eq]

theorem Repetition.walk_eq (rank : Rank) : ∀ repetition : Repetition,
    repetition.walk visit rank = follow visit (repetition.events rank)
  | .mk element cardinality => by
    rw [Repetition.walk, Repetition.events, follow_within, Element.walk_eq]
    cases cardinality <;> simp [Cardinality.walk_eq, Cardinality.events?]

theorem Element.walk_eq : ∀ element : Element, element.walk visit = follow visit element.events
  | .group pattern => by
    rw [Element.walk, Element.events, follow_within, follow_within, Pattern.walk_eq]
    simp
  | .filter filter => by
    rw [Element.walk, Element.events, follow_within, Filter.walk_eq]
  | .atom atom => by
    rw [Element.walk, Element.events, follow_within, Atom.walk_eq]

end

theorem Expression.walk_eq (rank : Rank) (expression : Expression) :
    expression.walk visit rank = follow visit (expression.events rank) := by
  rw [Expression.walk, Expression.events, follow_within, Pattern.walk_eq]
  cases expression.note <;> simp [leaf?]

/-- A visitor shows a follower the events of the document, until it stops. -/
theorem Document.walk_eq (document : Document) :
    document.walk visit = follow visit document.events := by
  rw [Document.walk, Document.walkNotice, Document.events, follow_within,
    inTurn_eq visit (Rule.walk_eq visit), inTurn_eq visit (Expression.walk_eq visit)]
  simp [follow_within, each]

end Following

end GrammarBook
