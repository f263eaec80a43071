import GrammarBook.Proofs.Walk.Following
import GrammarBook.Token.Spelling

namespace GrammarBook

open Walk

/-!
# Parts of a document

All that a document consists of and that may be wrong with it, at whatever depth it stands: leaves,
uses of names, ranges, constraints and filters. A walk through the document shows all its parts in
this order, and stands in an excluded filter only among the members of one.
-/

/-- Something in a document that may be wrong. -/
inductive Part where
  | leaf (kind : Kind) (text : String)
  | use (identifier : Identifier)
  | bounded (bounded : Bounded)
  | constraint (constraint : Constraint)
  | filter (filter : Filter)

/-! ## Recursion on documents -/

/-- The leaf of a token that may be missing. -/
def Part.leaf? (kind : Kind) (text : Option String) : List Part := text.toList.map (.leaf kind)

def Constraint.parts (constraint : Constraint) : List Part :=
  .constraint constraint :: .leaf .number constraint.minimum ::
    Part.leaf? .number (constraint.limit.bind (·.maximum))

def Cardinality.parts : Cardinality → List Part
  | quantified mark => [.leaf .quantified mark]
  | constrained constraint => constraint.parts

/-- The parts of a cardinality that may be missing. -/
def Cardinality.parts? (cardinality : Option Cardinality) : List Part :=
  cardinality.elim [] Cardinality.parts

def Identifier.parts : Identifier → List Part
  | lower name => [.use (.lower name), .leaf .lowercase name]
  | upper name => [.use (.upper name), .leaf .uppercase name]

def Reference.parts (reference : Reference) : List Part :=
  reference.identifier.parts ++ Cardinality.parts? reference.cardinality

mutual

def Term.parts : Term → List Part
  | .reference use => use.parts
  | .bracket terms cardinality => Term.listParts terms ++ Cardinality.parts? cardinality
  | .literal text => [.leaf .literal text]

def Term.listParts : List Term → List Part
  | [] => []
  | term :: others => term.parts ++ Term.listParts others

end

def Line.parts (line : Line) : List Part := line.identifier.parts ++ Part.leaf? .note line.note

def Definition.parts : Definition → List Part
  | multiline lines => lines.flatMap Line.parts
  | inlined terms note => Term.listParts terms ++ Part.leaf? .note note

def Rule.parts (rule : Rule) : List Part := .leaf .uppercase rule.name :: rule.definition.parts

def Bounded.parts (bounded : Bounded) : List Part :=
  .bounded bounded :: .leaf .glyph bounded.glyph :: Part.leaf? .glyph bounded.extent

def Character.parts : Character → List Part
  | bounded range => range.parts
  | intrinsic name => [.leaf .intrinsic name]

def Filter.parts (filter : Filter) : List Part :=
  .filter filter :: (Part.leaf? .excluded filter.excluded ++
    filter.characters.flatMap Character.parts)

def Atom.parts : Atom → List Part
  | bounded range => range.parts
  | intrinsic name => [.leaf .intrinsic name]
  | literal text => [.leaf .literal text]
  | lowercase name => [.use (.lower name), .leaf .lowercase name]

mutual

def Pattern.parts : Pattern → List Part
  | .mk first alternatives => first.parts ++ Sequence.listParts alternatives

def Sequence.listParts : List Sequence → List Part
  | [] => []
  | sequence :: others => sequence.parts ++ Sequence.listParts others

def Sequence.parts : Sequence → List Part
  | .mk repetitions => Repetition.listParts repetitions

def Repetition.listParts : List Repetition → List Part
  | [] => []
  | repetition :: others => repetition.parts ++ Repetition.listParts others

def Repetition.parts : Repetition → List Part
  | .mk element cardinality => element.parts ++ Cardinality.parts? cardinality

def Element.parts : Element → List Part
  | .group pattern => pattern.parts
  | .filter filter => filter.parts
  | .atom atom => atom.parts

end

def Expression.parts (expression : Expression) : List Part :=
  .leaf .lowercase expression.name :: (expression.pattern.parts ++
    Part.leaf? .note expression.note)

/-- The parts of a document. -/
def Document.parts (document : Document) : List Part :=
  .leaf .comment document.notice :: .leaf .comment document.leading ::
    (document.rules.flatMap Rule.parts ++ .leaf .comment document.trailing ::
      document.expressions.flatMap Expression.parts)

/-! ## Events -/

/-- The part that an event shows. Marks belong to the notation and to no document. -/
def Walk.Event.part? : Event → Option Part
  | .leaf .delimiter _ => none
  | .leaf kind text => some (.leaf kind text)
  | .enter (.identifier identifier) _ => some (.use identifier)
  | .enter (.text (.lowercase name)) _ => some (.use (.lower name))
  | .enter (.bounded bounded) _ => some (.bounded bounded)
  | .enter (.constrained constraint) _ => some (.constraint constraint)
  | .enter (.filter filter) _ => some (.filter filter)
  | _ => none

/-- The name that an event defines. -/
def Walk.Event.defined? : Event → Option Identifier
  | .enter (.rule rule) _ => some (.upper rule.name)
  | .enter (.expression expression) _ => some (.lower expression.name)
  | _ => none

/-- The node is neither a filter nor a whole document. -/
def Walk.Node.isPlain : Node → Bool
  | .filter _ | .document _ => false
  | _ => true

/-- Whether a walk stands in an excluded filter after an event. -/
def Walk.Event.exclusion (excluding : Bool) : Event → Bool
  | .enter (.filter filter) _ => filter.isExcluded
  | .leave (.filter _) _ => false
  | _ => excluding

/-- The leaf for all characters. -/
def Walk.Event.any : Event := .leaf .intrinsic "ANY"

/-- No character is left to an excluded filter that contains the intrinsic for all characters. -/
def Filter.LeavesSome (filter : Filter) : Prop :=
  filter.isExcluded = true → .intrinsic "ANY" ∉ filter.characters

/-- The leaf for all characters stands in no excluded filter. -/
def AnyAllowed : Bool → List Event → Prop
  | _, [] => True
  | excluding, event :: events =>
    (event = .any → excluding = false) ∧ AnyAllowed (event.exclusion excluding) events

/-- Events within a document that begin and end outside of filters define the names, show the parts,
know their marks, and bring no other exclusion than that of the filters among the parts. -/
structure Shows (events : List Event) (names : List Identifier) (parts : List Part) : Prop where
  defined : events.filterMap Event.defined? = names
  shown : events.filterMap Event.part? = parts
  marks : ∀ text, .leaf .delimiter text ∈ events → Kind.delimiter.accepts text = true
  goesOn : ∀ document rank, .leave (.document document) rank ∉ events
  steady : (∀ filter, .filter filter ∉ parts) →
    ∀ event ∈ events, ∀ excluding, event.exclusion excluding = excluding
  exclusion : ∀ rest, AnyAllowed false (events ++ rest) ↔
    (∀ filter, .filter filter ∈ parts → filter.LeavesSome) ∧ AnyAllowed false rest

variable {events later : List Event} {names more : List Identifier} {parts others : List Part}

/-! ## Composition -/

theorem shows_nil : Shows [] [] [] :=
  ⟨rfl, rfl, fun _ absent => absurd absent List.not_mem_nil, fun _ _ => List.not_mem_nil,
    fun _ _ absent => absurd absent List.not_mem_nil, fun rest => by simp⟩

theorem Shows.append (first : Shows events names parts) (second : Shows later more others) :
    Shows (events ++ later) (names ++ more) (parts ++ others) := by
  refine ⟨?_, ?_, ?_, ?_, ?_, ?_⟩
  · rw [List.filterMap_append, first.defined, second.defined]
  · rw [List.filterMap_append, first.shown, second.shown]
  · intro text member
    rcases List.mem_append.mp member with early | late
    · exact first.marks text early
    · exact second.marks text late
  · intro document rank member
    rcases List.mem_append.mp member with early | late
    · exact first.goesOn document rank early
    · exact second.goesOn document rank late
  · intro none event member
    simp only [List.mem_append, not_or, forall_and] at none
    rcases List.mem_append.mp member with early | late
    · exact first.steady none.1 event early
    · exact second.steady none.2 event late
  · intro rest
    rw [List.append_assoc, first.exclusion, second.exclusion, ← and_assoc]
    refine and_congr_left' ?_
    simp only [List.mem_append, or_imp, forall_and]

/-- An event by itself, outside of filters. -/
theorem shows_event {event : Event} (outside : ∀ excluding, event.exclusion excluding = excluding)
    (noFilter : ∀ filter, event.part? ≠ some (.filter filter))
    (marked : ∀ text, event = .leaf .delimiter text → Kind.delimiter.accepts text = true)
    (goesOn : ∀ document rank, event ≠ .leave (.document document) rank) :
    Shows [event] event.defined?.toList event.part?.toList := by
  refine ⟨?_, ?_, ?_, ?_, ?_, ?_⟩
  · cases defined : event.defined? <;> simp [defined]
  · cases shown : event.part? <;> simp [shown]
  · intro text member
    exact marked text (List.mem_singleton.mp member).symm
  · intro document rank member
    exact goesOn document rank (List.mem_singleton.mp member).symm
  · intro _ other member
    exact List.mem_singleton.mp member ▸ outside
  · intro rest
    have none : ∀ filter, Part.filter filter ∈ event.part?.toList → filter.LeavesSome := by
      intro filter member
      exact absurd (Option.mem_toList.mp member) (noFilter filter)
    rw [List.singleton_append, AnyAllowed, outside]
    simp only [implies_true, true_and, and_iff_right none]

theorem shows_leaf (kind : Kind) (text : String) (other : kind ≠ .delimiter) :
    Shows [.leaf kind text] [] [.leaf kind text] := by
  have shown : (Event.leaf kind text).part? = some (.leaf kind text) := by
    cases kind
    case delimiter => exact absurd rfl other
    all_goals rfl
  have single : Shows [.leaf kind text] [] (Event.leaf kind text).part?.toList :=
    shows_event (fun _ => rfl) (by simp [shown])
      (fun _ same => absurd (Event.leaf.inj same).1 other) (fun _ _ same => by cases same)
  rwa [shown] at single

theorem shows_leaf? (kind : Kind) (text : Option String) (other : kind ≠ .delimiter) :
    Shows (leaf? kind text) [] (Part.leaf? kind text) := by
  cases text with
  | none => exact shows_nil
  | some text => exact shows_leaf kind text other

theorem Shows.behindMark (inner : Shows events names parts) (text : String)
    (known : Kind.delimiter.accepts text = true) : Shows (mark text :: events) names parts := by
  have single : Shows [mark text] [] (mark text).part?.toList := by
    refine shows_event (fun _ => rfl) (fun _ found => by cases found) ?_
      (fun _ _ same => by cases same)
    rintro _ ⟨⟩
    exact known
  exact single.append inner

theorem Shows.beforeMark (inner : Shows events names parts) (text : String)
    (known : Kind.delimiter.accepts text = true) : Shows (events ++ [mark text]) names parts := by
  have both := inner.append (shows_nil.behindMark text known)
  rwa [List.append_nil, List.append_nil] at both

/-- A node that is not a filter shows itself before its parts. -/
theorem Shows.within {node : Node} {rank : Option Rank} {name : Option Identifier}
    {front : Option Part} (inner : Shows events names parts) (outside : node.isPlain = true)
    (defines : (Event.enter node rank).defined? = name)
    (opens : (Event.enter node rank).part? = front) :
    Shows (Walk.within node rank events) (name.toList ++ names) (front.toList ++ parts) := by
  have entered : Shows [.enter node rank] name.toList front.toList := by
    rw [← defines, ← opens]
    refine shows_event ?_ ?_ (fun _ same => by cases same) (fun _ _ same => by cases same)
    · intro excluding
      cases node
      case filter filter => cases outside
      all_goals rfl
    · intro filter
      cases node
      case filter filter => cases outside
      case text atom => cases atom <;> simp [Event.part?]
      all_goals simp [Event.part?]
  have left : Shows [.leave node rank] [] (Event.leave node rank).part?.toList := by
    refine shows_event ?_ (fun _ found => by cases found) (fun _ same => by cases same) ?_
    · intro excluding
      cases node
      case filter filter => cases outside
      all_goals rfl
    · rintro document rank ⟨⟩
      cases outside
  have around : Shows (Walk.within node rank events) (name.toList ++ (names ++ []))
      (front.toList ++ (parts ++ [])) :=
    entered.append (inner.append left)
  rwa [List.append_nil, List.append_nil] at around

/-- A node that defines nothing and shows nothing but its parts. -/
theorem Shows.plain {node : Node} {rank : Option Rank} (inner : Shows events names parts)
    (outside : node.isPlain = true) (defines : (Event.enter node rank).defined? = none)
    (opens : (Event.enter node rank).part? = none) :
    Shows (Walk.within node rank events) names parts :=
  inner.within outside defines opens

theorem shows_eachFrom {α : Type} {walk : Rank → α → List Event} {named : α → List Identifier}
    {written : α → List Part} {members : List α}
    (one : ∀ member ∈ members, ∀ rank, Shows (walk rank member) (named member) (written member))
    (size index : Nat) :
    Shows (eachFrom size walk index members) (members.flatMap named) (members.flatMap written) := by
  induction members generalizing index with
  | nil => exact shows_nil
  | cons member members ih =>
      obtain ⟨first, others⟩ := List.forall_mem_cons.mp one
      exact (first ⟨index, size⟩).append (ih others (index + 1))

/-- Members that define nothing. -/
theorem shows_each {α : Type} {walk : Rank → α → List Event} {written : α → List Part}
    (members : List α) (one : ∀ rank member, Shows (walk rank member) [] (written member)) :
    Shows (each walk members) [] (members.flatMap written) := by
  have all : Shows (each walk members) (members.flatMap fun _ => []) (members.flatMap written) :=
    shows_eachFrom (fun member _ rank => one rank member) members.length 1
  rwa [List.flatMap_eq_nil_iff.mpr fun _ _ => rfl] at all

/-! ## Nodes outside of filters -/

theorem shows_limit (limit : Limit) : Shows limit.events [] (Part.leaf? .number limit.maximum) :=
  ((shows_leaf? .number limit.maximum (by decide)).behindMark ".." (by decide)).plain rfl rfl rfl

theorem shows_constraint (constraint : Constraint) : Shows constraint.events [] constraint.parts := by
  have limit : Shows (constraint.limit.elim [] Limit.events) []
      (Part.leaf? .number (constraint.limit.bind (·.maximum))) := by
    cases constraint.limit with
    | none => exact shows_nil
    | some limit => exact shows_limit limit
  have inner := (shows_leaf .number constraint.minimum (by decide)).append
    (limit.beforeMark "\x7d" (by decide))
  exact (inner.behindMark "\x7b" (by decide)).within rfl rfl rfl

theorem shows_cardinality (cardinality : Cardinality) :
    Shows cardinality.events [] cardinality.parts := by
  cases cardinality with
  | constrained constraint =>
      exact (shows_constraint constraint).plain rfl rfl rfl
  | quantified mark =>
      exact (shows_leaf .quantified mark (by decide)).plain rfl rfl rfl

theorem shows_cardinality? (cardinality : Option Cardinality) :
    Shows (Cardinality.events? cardinality) [] (Cardinality.parts? cardinality) := by
  cases cardinality with
  | none => exact shows_nil
  | some cardinality => exact shows_cardinality cardinality

theorem shows_identifier (identifier : Identifier) :
    Shows identifier.events [] identifier.parts := by
  cases identifier with
  | lower name =>
      exact (shows_leaf .lowercase name (by decide)).within rfl rfl rfl
  | upper name =>
      exact (shows_leaf .uppercase name (by decide)).within rfl rfl rfl

theorem shows_reference (reference : Reference) : Shows reference.events [] reference.parts :=
  ((shows_identifier reference.identifier).append
    (shows_cardinality? reference.cardinality)).plain rfl rfl rfl

mutual

theorem shows_term (rank : Rank) : (term : Term) → Shows (term.events rank) [] term.parts
  | .reference use => (shows_reference use).plain rfl rfl rfl
  | .bracket terms cardinality => by
      have inner := (shows_terms terms.length 1 terms).append
        ((shows_cardinality? cardinality).behindMark ")" (by decide))
      exact ((inner.behindMark "(" (by decide)).plain rfl rfl rfl).plain rfl rfl rfl
  | .literal text => (shows_leaf .literal text (by decide)).plain rfl rfl rfl

theorem shows_terms (size index : Nat) :
    (terms : List Term) → Shows (Term.eventsFrom size index terms) [] (Term.listParts terms)
  | [] => shows_nil
  | term :: others => (shows_term ⟨index, size⟩ term).append (shows_terms size (index + 1) others)

end

theorem shows_line (rank : Rank) (line : Line) : Shows (line.events rank) [] line.parts := by
  have inner := (shows_identifier line.identifier).append (shows_leaf? .note line.note (by decide))
  exact (inner.behindMark "-" (by decide)).plain rfl rfl rfl

theorem shows_definition (definition : Definition) :
    Shows definition.events [] definition.parts := by
  cases definition with
  | multiline lines =>
      exact ((shows_each lines shows_line).plain rfl rfl rfl).plain rfl rfl rfl
  | inlined terms note =>
      have inner := (shows_terms terms.length 1 terms).append (shows_leaf? .note note (by decide))
      exact (inner.plain rfl rfl rfl).plain rfl rfl rfl

theorem shows_rule (rank : Rank) (rule : Rule) :
    Shows (rule.events rank) [.upper rule.name] rule.parts := by
  have inner := (shows_leaf .uppercase rule.name (by decide)).append
    ((shows_definition rule.definition).behindMark ":" (by decide))
  exact inner.within rfl rfl rfl

/-! ## Nodes of patterns -/

theorem shows_bounded (bounded : Bounded) : Shows bounded.events [] bounded.parts := by
  have extent : Shows (bounded.extent.elim [] extentEvents) []
      (Part.leaf? .glyph bounded.extent) := by
    cases bounded.extent with
    | none => exact shows_nil
    | some last =>
        exact ((shows_leaf .glyph last (by decide)).behindMark ".." (by decide)).plain rfl rfl rfl
  exact ((shows_leaf .glyph bounded.glyph (by decide)).append extent).within rfl rfl rfl

theorem shows_character (rank : Rank) (character : Character) :
    Shows (character.events rank) [] character.parts := by
  cases character with
  | bounded range => exact (shows_bounded range).plain rfl rfl rfl
  | intrinsic name =>
      exact (shows_leaf .intrinsic name (by decide)).plain rfl rfl rfl

/-- Events that neither begin nor end a filter. -/
theorem anyAllowed_append {excluding : Bool}
    (steady : ∀ event ∈ events, ∀ excluding, event.exclusion excluding = excluding)
    (rest : List Event) :
    AnyAllowed excluding (events ++ rest) ↔
      (excluding = true → Event.any ∉ events) ∧ AnyAllowed excluding rest := by
  induction events with
  | nil => simp
  | cons event events ih =>
      obtain ⟨first, others⟩ := List.forall_mem_cons.mp steady
      rw [List.cons_append, AnyAllowed, first, ih others, List.mem_cons, ← and_assoc]
      refine and_congr_left' ?_
      cases excluding <;> simp [eq_comm]

/-- A leaf that is no mark is shown as itself, and nothing else is shown as a leaf. -/
theorem leaf_mem_iff {kind : Kind} {text : String} (other : kind ≠ .delimiter) :
    Event.leaf kind text ∈ events ↔ Part.leaf kind text ∈ events.filterMap Event.part? := by
  have shownAs : (Event.leaf kind text).part? = some (.leaf kind text) := by
    cases kind
    case delimiter => exact absurd rfl other
    all_goals rfl
  rw [List.mem_filterMap]
  constructor
  · exact fun member => ⟨_, member, shownAs⟩
  · rintro ⟨event, member, shown⟩
    have same : event = .leaf kind text := by
      cases event with
      | leaf kind text =>
          cases kind
          case delimiter => cases shown
          all_goals
            cases shown
            rfl
      | enter node rank =>
          cases node
          case text atom => cases atom <;> cases shown
          all_goals cases shown
      | leave node rank => cases shown
    exact same ▸ member

theorem any_mem_iff : Event.any ∈ events ↔
    Part.leaf .intrinsic "ANY" ∈ events.filterMap Event.part? :=
  leaf_mem_iff (by decide)

/-- The parts of a filter besides the filter itself. -/
def Filter.innerParts (filter : Filter) : List Part :=
  Part.leaf? .excluded filter.excluded ++ filter.characters.flatMap Character.parts

theorem Filter.any_mem_innerParts {filter : Filter} :
    .leaf .intrinsic "ANY" ∈ filter.innerParts ↔ .intrinsic "ANY" ∈ filter.characters := by
  have one (character : Character) :
      .leaf .intrinsic "ANY" ∈ character.parts ↔ character = .intrinsic "ANY" := by
    cases character with
    | bounded range => simp [Character.parts, Bounded.parts, Part.leaf?]
    | intrinsic name => simp [Character.parts, eq_comm]
  simp [Filter.innerParts, Part.leaf?, one]

theorem Filter.not_mem_innerParts (filter other : Filter) : .filter other ∉ filter.innerParts := by
  have one (character : Character) : .filter other ∉ character.parts := by
    cases character with
    | bounded range => simp [Character.parts, Bounded.parts, Part.leaf?]
    | intrinsic name => simp [Character.parts]
  simp [Filter.innerParts, Part.leaf?, one]

/-- A filter is the only node in which something may be excluded. -/
theorem shows_filter (filter : Filter) : Shows filter.events [] filter.parts := by
  let events := leaf? .excluded filter.excluded ++
    mark "[" :: (each Character.events filter.characters ++ [mark "]"])
  have characters := shows_each filter.characters shows_character
  have inner : Shows events [] filter.innerParts :=
    (shows_leaf? .excluded filter.excluded (by decide)).append
      ((characters.beforeMark "]" (by decide)).behindMark "[" (by decide))
  have steady := inner.steady filter.not_mem_innerParts
  refine ⟨?_, ?_, ?_, ?_, ?_, ?_⟩
  · change (.enter (.filter filter) none ::
      (events ++ [Event.leave (.filter filter) none])).filterMap Event.defined? = []
    have entered : (Event.enter (.filter filter) none).defined? = none := rfl
    rw [List.filterMap_cons_none entered, List.filterMap_append, inner.defined]
    rfl
  · change (.enter (.filter filter) none ::
      (events ++ [Event.leave (.filter filter) none])).filterMap Event.part? =
        .filter filter :: filter.innerParts
    have entered : (Event.enter (.filter filter) none).part? = some (.filter filter) := rfl
    rw [List.filterMap_cons_some entered, List.filterMap_append, inner.shown]
    exact congrArg _ (List.append_nil _)
  · intro text member
    rcases mem_within.mp member with entered | during | left
    · cases entered
    · exact inner.marks text during
    · cases left
  · intro document rank member
    rcases mem_within.mp member with entered | during | left
    · cases entered
    · exact inner.goesOn document rank during
    · cases left
  · exact fun none => absurd List.mem_cons_self (none filter)
  · intro rest
    have filters : (∀ other, .filter other ∈ filter.parts → other.LeavesSome) ↔
        filter.LeavesSome := by
      change (∀ other, .filter other ∈ .filter filter :: filter.innerParts → _) ↔ _
      simp [filter.not_mem_innerParts]
    have allowed : AnyAllowed filter.isExcluded (events ++ .leave (.filter filter) none :: rest) ↔
        filter.LeavesSome ∧ AnyAllowed false rest := by
      rw [anyAllowed_append steady, any_mem_iff, inner.shown, Filter.any_mem_innerParts]
      exact and_congr_right' (and_iff_right fun same => by cases same)
    have around : AnyAllowed false (filter.events ++ rest) ↔
        AnyAllowed filter.isExcluded (events ++ .leave (.filter filter) none :: rest) := by
      change AnyAllowed false (.enter (.filter filter) none ::
        ((events ++ [Event.leave (.filter filter) none]) ++ rest)) ↔ _
      rw [List.append_assoc]
      exact and_iff_right fun same => by cases same
    rw [around, allowed, filters]

theorem shows_atom (atom : Atom) : Shows atom.events [] atom.parts := by
  cases atom with
  | bounded range => exact (shows_bounded range).plain rfl rfl rfl
  | intrinsic name => exact (shows_leaf .intrinsic name (by decide)).plain rfl rfl rfl
  | literal text => exact (shows_leaf .literal text (by decide)).plain rfl rfl rfl
  | lowercase name => exact (shows_leaf .lowercase name (by decide)).within rfl rfl rfl

mutual

theorem shows_pattern : (pattern : Pattern) → Shows pattern.events [] pattern.parts
  | .mk first alternatives =>
      ((shows_sequence first).append
        (shows_alternatives alternatives.length 1 alternatives)).plain rfl rfl rfl

theorem shows_alternatives (size index : Nat) : (sequences : List Sequence) →
    Shows (Sequence.alternativeEventsFrom size index sequences) [] (Sequence.listParts sequences)
  | [] => shows_nil
  | sequence :: others =>
      (((shows_sequence sequence).behindMark "|" (by decide)).plain rfl rfl rfl).append
        (shows_alternatives size (index + 1) others)

theorem shows_sequence : (sequence : Sequence) → Shows sequence.events [] sequence.parts
  | .mk repetitions => (shows_repetitions repetitions.length 1 repetitions).plain rfl rfl rfl

theorem shows_repetitions (size index : Nat) : (repetitions : List Repetition) →
    Shows (Repetition.eventsFrom size index repetitions) [] (Repetition.listParts repetitions)
  | [] => shows_nil
  | repetition :: others =>
      (shows_repetition ⟨index, size⟩ repetition).append
        (shows_repetitions size (index + 1) others)

theorem shows_repetition (rank : Rank) :
    (repetition : Repetition) → Shows (repetition.events rank) [] repetition.parts
  | .mk element cardinality =>
      ((shows_element element).append (shows_cardinality? cardinality)).plain rfl rfl rfl

theorem shows_element : (element : Element) → Shows element.events [] element.parts
  | .group pattern =>
      ((((shows_pattern pattern).beforeMark ")" (by decide)).behindMark "(" (by decide)).plain
        rfl rfl rfl).plain rfl rfl rfl
  | .filter filter => (shows_filter filter).plain rfl rfl rfl
  | .atom atom => (shows_atom atom).plain rfl rfl rfl

end

theorem shows_expression (rank : Rank) (expression : Expression) :
    Shows (expression.events rank) [.lower expression.name] expression.parts := by
  have behindColon := (shows_pattern expression.pattern).append
    (shows_leaf? .note expression.note (by decide))
  have inner := (shows_leaf .lowercase expression.name (by decide)).append
    (behindColon.behindMark ":" (by decide))
  exact inner.within rfl rfl rfl

/-- The names that a document defines. -/
def Document.definedNames (document : Document) : List Identifier :=
  (document.rules.map fun rule => .upper rule.name) ++
    document.expressions.map fun expression => .lower expression.name

/-- What a walk through a document shows before it leaves the document. -/
theorem shows_document (document : Document) :
    ∃ events, document.events = events ++ [Event.leave (.document document) none] ∧
      Shows events document.definedNames document.parts := by
  have entered : Shows [.enter (.document document) none] [] [] :=
    shows_event (fun _ => rfl) (fun _ found => by cases found) (fun _ same => by cases same)
      (fun _ _ same => by cases same)
  have notice : Shows (within (.notice document.notice) none [.leaf .comment document.notice]) []
      [.leaf .comment document.notice] :=
    (shows_leaf .comment document.notice (by decide)).plain rfl rfl rfl
  have rules : Shows (each Rule.events document.rules)
      (document.rules.flatMap fun rule => [.upper rule.name]) (document.rules.flatMap Rule.parts) :=
    shows_eachFrom (fun rule _ rank => shows_rule rank rule) _ 1
  have expressions : Shows (each Expression.events document.expressions)
      (document.expressions.flatMap fun expression => [.lower expression.name])
      (document.expressions.flatMap Expression.parts) :=
    shows_eachFrom (fun expression _ rank => shows_expression rank expression) _ 1
  rw [← List.map_eq_flatMap] at rules expressions
  have behindRules := (shows_leaf .comment document.trailing (by decide)).append expressions
  have behindNotice := (shows_leaf .comment document.leading (by decide)).append
    (rules.append behindRules)
  refine ⟨_, ?_, entered.append (notice.append behindNotice)⟩
  simp [Document.events, within]

end GrammarBook
