import GrammarBook.Proofs.Walk.Following

namespace GrammarBook
namespace Walk

/-!
# Nesting of a walk, and where a fault cuts it

A walk through a node enters it, goes through all that stands in it, and leaves it as the node that was
entered, with the same rank. The members of a list are met in their order and ranked by it. A follower
is shown the walk event by event: if it goes through all of them it has been shown the whole walk, and
if it stops at one of them it has been shown the walk up to that event, which is where its fault comes
from.
-/

/-! ## What stands in a node -/

/-- What stands directly in a node: a leaf, or another node, with its rank if it is a member of a
list. -/
inductive Child where
  | leaf (kind : Kind) (text : String)
  | node (node : Node) (rank : Option Rank)

namespace Child

def sign (text : String) : Child := .leaf .delimiter text

def leaf? (kind : Kind) (text : Option String) : List Child := text.toList.map (.leaf kind)

def node? {α : Type} (make : α → Node) (value : Option α) : List Child :=
  value.toList.map fun found => .node (make found) none

/-- The members of a list of the given size, ranked from the index on. -/
def membersFrom {α : Type} (make : α → Node) (size index : Nat) (list : List α) : List Child :=
  (list.zipIdx index).map fun entry => .node (make entry.1) (some ⟨entry.2, size⟩)

/-- The members of a list, each with its place, counted from one, and the length of the list. -/
def members {α : Type} (make : α → Node) (list : List α) : List Child :=
  membersFrom make list.length 1 list

end Child

open Child (sign members)

/-- All that stands directly in a node, in the order in which its production is written. -/
def Node.children : Node → List Child
  | document whole =>
    .node (.notice whole.notice) none :: .leaf .comment whole.leading ::
      (members .rule whole.rules ++
        .leaf .comment whole.trailing :: members .expression whole.expressions)
  | notice comment => [.leaf .comment comment]
  | rule whole => [.leaf .uppercase whole.name, sign ":", .node (.definition whole.definition) none]
  | definition (.multiline lines) => [.node (.multiline lines) none]
  | definition (.inlined terms note) => [.node (.inlined terms note) none]
  | multiline lines => members .line lines
  | line choice =>
    sign "-" :: .node (.identifier choice.identifier) none :: Child.leaf? .note choice.note
  | identifier (.lower name) => [.leaf .lowercase name]
  | identifier (.upper name) => [.leaf .uppercase name]
  | inlined terms note => members .term terms ++ Child.leaf? .note note
  | term (.reference use) => [.node (.reference use) none]
  | term (.bracket terms counts) => [.node (.bracket terms counts) none]
  | term (.literal quoted) => [.leaf .literal quoted]
  | reference use =>
    .node (.identifier use.identifier) none :: Child.node? .cardinality use.cardinality
  | bracket terms counts =>
    sign "(" :: (members .term terms ++ sign ")" :: Child.node? .cardinality counts)
  | expression whole =>
    .leaf .lowercase whole.name :: sign ":" :: .node (.pattern whole.pattern) none ::
      Child.leaf? .note whole.note
  | pattern whole => .node (.sequence whole.first) none :: members .alternative whole.alternatives
  | alternative row => [sign "|", .node (.sequence row) none]
  | sequence row => members .repetition row.repetitions
  | repetition piece =>
    .node (.element piece.element) none :: Child.node? .cardinality piece.cardinality
  | element (.group inner) => [.node (.group inner) none]
  | element (.filter set) => [.node (.filter set) none]
  | element (.atom atom) => [.node (.text atom) none]
  | group inner => [sign "(", .node (.pattern inner) none, sign ")"]
  | filter set =>
    Child.leaf? .excluded set.excluded ++
      sign "[" :: (members .character set.characters ++ [sign "]"])
  | character (.bounded range) => [.node (.bounded range) none]
  | character (.intrinsic name) => [.leaf .intrinsic name]
  | bounded range => .leaf .glyph range.glyph :: Child.node? .extent range.extent
  | extent glyph => [sign "..", .leaf .glyph glyph]
  | text (.bounded range) => [.node (.bounded range) none]
  | text (.intrinsic name) => [.leaf .intrinsic name]
  | text (.literal quoted) => [.leaf .literal quoted]
  | text (.lowercase name) => [.leaf .lowercase name]
  | cardinality (.constrained counts) => [.node (.constrained counts) none]
  | cardinality (.quantified sign) => [.leaf .quantified sign]
  | constrained counts =>
    sign "\x7b" :: .leaf .number counts.minimum ::
      (Child.node? .limit counts.limit ++ [sign "\x7d"])
  | limit upper => sign ".." :: Child.leaf? .number upper.maximum

/-- The events go through the children in their order. Every node that is entered is left again as the
same node with the same rank, and between that come the events that go through its own children. -/
inductive WellNested : List Child → List Event → Prop
  | nil : WellNested [] []
  | leaf {children : List Child} {later : List Event} (kind : Kind) (text : String)
      (others : WellNested children later) :
      WellNested (.leaf kind text :: children) (.leaf kind text :: later)
  | node {children : List Child} {events later : List Event} (node : Node) (rank : Option Rank)
      (inner : WellNested node.children events) (others : WellNested children later) :
      WellNested (.node node rank :: children)
        (.enter node rank :: (events ++ .leave node rank :: later))

section Nesting

variable {children others : List Child} {events later : List Event}

theorem WellNested.append (first : WellNested children events) (second : WellNested others later) :
    WellNested (children ++ others) (events ++ later) := by
  induction first with
  | nil => exact second
  | leaf kind text _ ih => exact .leaf kind text ih
  | node node rank inner _ _ ih =>
      rw [List.cons_append, List.cons_append, List.append_assoc, List.cons_append]
      exact .node node rank inner ih

/-- A node by itself. -/
theorem wellNested_within (node : Node) {rank : Option Rank}
    (inner : WellNested node.children events) :
    WellNested [.node node rank] (within node rank events) :=
  .node node rank inner .nil

theorem wellNested_leaf (kind : Kind) (text : String) :
    WellNested [.leaf kind text] [.leaf kind text] :=
  .leaf kind text .nil

theorem wellNested_leaf? (kind : Kind) (text : Option String) :
    WellNested (Child.leaf? kind text) (leaf? kind text) := by
  cases text with
  | none => exact .nil
  | some text => exact wellNested_leaf kind text

theorem wellNested_node? {α : Type} {make : α → Node} {walk : α → List Event}
    (one : ∀ value, WellNested [.node (make value) none] (walk value)) (value : Option α) :
    WellNested (Child.node? make value) (value.elim [] walk) := by
  cases value with
  | none => exact .nil
  | some value => exact one value

/-- What is left within nested events has been entered there. -/
theorem WellNested.entered {node : Node} {rank : Option Rank} (nested : WellNested children events)
    (left : .leave node rank ∈ events) : .enter node rank ∈ events := by
  induction nested with
  | nil => exact absurd left List.not_mem_nil
  | leaf kind text _ ih =>
      rcases List.mem_cons.mp left with same | later
      · cases same
      · exact List.mem_cons_of_mem _ (ih later)
  | node other otherRank _ _ inside behind =>
      rw [List.mem_cons, List.mem_append, List.mem_cons] at left ⊢
      rcases left with same | within | same | later
      · cases same
      · exact .inr (.inl (inside within))
      · cases same
        exact .inl rfl
      · exact .inr (.inr (.inr (behind later)))

/-- Members that are nested each by itself are ranked by their places. -/
theorem wellNested_eachFrom {α : Type} {walk : Rank → α → List Event} {make : α → Node}
    (one : ∀ rank member, WellNested [.node (make member) (some rank)] (walk rank member))
    (list : List α) (size index : Nat) :
    WellNested (Child.membersFrom make size index list) (eachFrom size walk index list) := by
  induction list generalizing index with
  | nil => exact .nil
  | cons member list ih => exact (one ⟨index, size⟩ member).append (ih (index + 1))

end Nesting

/-! ## Walks through rules -/

theorem wellNested_limit (limit : Limit) : WellNested [.node (.limit limit) none] limit.events :=
  wellNested_within (.limit limit) (.leaf .delimiter ".." (wellNested_leaf? .number limit.maximum))

theorem wellNested_constraint (constraint : Constraint) :
    WellNested [.node (.constrained constraint) none] constraint.events := by
  have limit := wellNested_node? wellNested_limit constraint.limit
  have closed := limit.append (wellNested_leaf .delimiter "\x7d")
  exact wellNested_within (.constrained constraint)
    (.leaf .delimiter "\x7b" (.leaf .number constraint.minimum closed))

theorem wellNested_cardinality (cardinality : Cardinality) :
    WellNested [.node (.cardinality cardinality) none] cardinality.events := by
  apply wellNested_within (.cardinality cardinality)
  cases cardinality with
  | constrained constraint => exact wellNested_constraint constraint
  | quantified text => exact wellNested_leaf .quantified text

theorem wellNested_identifier (identifier : Identifier) :
    WellNested [.node (.identifier identifier) none] identifier.events := by
  apply wellNested_within (.identifier identifier)
  cases identifier with
  | lower name => exact wellNested_leaf .lowercase name
  | upper name => exact wellNested_leaf .uppercase name

theorem wellNested_reference (reference : Reference) :
    WellNested [.node (.reference reference) none] reference.events :=
  wellNested_within (.reference reference)
    ((wellNested_identifier reference.identifier).append
      (wellNested_node? wellNested_cardinality reference.cardinality))

mutual

theorem wellNested_term (rank : Rank) :
    ∀ term : Term, WellNested [.node (.term term) (some rank)] (term.events rank)
  | .reference use => by
    rw [Term.events]
    exact wellNested_within (.term (.reference use)) (wellNested_reference use)
  | .bracket terms cardinality => by
    have closed := (wellNested_node? wellNested_cardinality cardinality).leaf .delimiter ")"
    have parts := (wellNested_terms terms.length 1 terms).append closed
    rw [Term.events]
    exact wellNested_within (.term (.bracket terms cardinality))
      (wellNested_within (.bracket terms cardinality) (parts.leaf .delimiter "("))
  | .literal text => by
    rw [Term.events]
    exact wellNested_within (.term (.literal text)) (wellNested_leaf .literal text)

theorem wellNested_terms (size : Nat) : ∀ (index : Nat) (terms : List Term),
    WellNested (Child.membersFrom .term size index terms) (Term.eventsFrom size index terms)
  | _, [] => by
    rw [Term.eventsFrom]
    exact .nil
  | index, term :: others => by
    rw [Term.eventsFrom]
    exact (wellNested_term ⟨index, size⟩ term).append (wellNested_terms size (index + 1) others)

end

theorem wellNested_line (rank : Rank) (line : Line) :
    WellNested [.node (.line line) (some rank)] (line.events rank) := by
  have parts := (wellNested_identifier line.identifier).append (wellNested_leaf? .note line.note)
  exact wellNested_within (.line line) (parts.leaf .delimiter "-")

theorem wellNested_definition (definition : Definition) :
    WellNested [.node (.definition definition) none] definition.events := by
  apply wellNested_within (.definition definition)
  cases definition with
  | multiline lines =>
      exact wellNested_within (.multiline lines)
        (wellNested_eachFrom wellNested_line lines lines.length 1)
  | inlined terms note =>
      have parts := (wellNested_terms terms.length 1 terms).append (wellNested_leaf? .note note)
      exact wellNested_within (.inlined terms note) parts

theorem wellNested_rule (rank : Rank) (rule : Rule) :
    WellNested [.node (.rule rule) (some rank)] (rule.events rank) := by
  have parts := (wellNested_definition rule.definition).leaf .delimiter ":"
  exact wellNested_within (.rule rule) (parts.leaf .uppercase rule.name)

/-! ## Walks through expressions -/

theorem wellNested_extent (glyph : String) :
    WellNested [.node (.extent glyph) none] (extentEvents glyph) :=
  wellNested_within (.extent glyph) (.leaf .delimiter ".." (wellNested_leaf .glyph glyph))

theorem wellNested_bounded (bounded : Bounded) :
    WellNested [.node (.bounded bounded) none] bounded.events := by
  have extent := wellNested_node? wellNested_extent bounded.extent
  exact wellNested_within (.bounded bounded) (extent.leaf .glyph bounded.glyph)

theorem wellNested_character (rank : Rank) (character : Character) :
    WellNested [.node (.character character) (some rank)] (character.events rank) := by
  apply wellNested_within (.character character)
  cases character with
  | bounded range => exact wellNested_bounded range
  | intrinsic name => exact wellNested_leaf .intrinsic name

theorem wellNested_filter (filter : Filter) :
    WellNested [.node (.filter filter) none] filter.events := by
  have characters :=
    wellNested_eachFrom wellNested_character filter.characters filter.characters.length 1
  have closed := characters.append (wellNested_leaf .delimiter "]")
  have excluded := wellNested_leaf? .excluded filter.excluded
  exact wellNested_within (.filter filter) (excluded.append (closed.leaf .delimiter "["))

theorem wellNested_atom (atom : Atom) : WellNested [.node (.text atom) none] atom.events := by
  apply wellNested_within (.text atom)
  cases atom with
  | bounded range => exact wellNested_bounded range
  | intrinsic name => exact wellNested_leaf .intrinsic name
  | literal text => exact wellNested_leaf .literal text
  | lowercase name => exact wellNested_leaf .lowercase name

mutual

theorem wellNested_pattern : ∀ pattern : Pattern,
    WellNested [.node (.pattern pattern) none] pattern.events
  | .mk first alternatives => by
    rw [Pattern.events]
    exact wellNested_within (.pattern (.mk first alternatives)) ((wellNested_sequence first).append
      (wellNested_alternatives alternatives.length 1 alternatives))

theorem wellNested_alternatives (size : Nat) : ∀ (index : Nat) (sequences : List Sequence),
    WellNested (Child.membersFrom .alternative size index sequences)
      (Sequence.alternativeEventsFrom size index sequences)
  | _, [] => by
    rw [Sequence.alternativeEventsFrom]
    exact .nil
  | index, sequence :: others => by
    have parts := (wellNested_sequence sequence).leaf .delimiter "|"
    rw [Sequence.alternativeEventsFrom]
    exact (wellNested_within (.alternative sequence) parts).append
      (wellNested_alternatives size (index + 1) others)

theorem wellNested_sequence : ∀ sequence : Sequence,
    WellNested [.node (.sequence sequence) none] sequence.events
  | .mk repetitions => by
    rw [Sequence.events]
    exact wellNested_within (.sequence (.mk repetitions))
      (wellNested_repetitions repetitions.length 1 repetitions)

theorem wellNested_repetitions (size : Nat) : ∀ (index : Nat) (repetitions : List Repetition),
    WellNested (Child.membersFrom .repetition size index repetitions)
      (Repetition.eventsFrom size index repetitions)
  | _, [] => by
    rw [Repetition.eventsFrom]
    exact .nil
  | index, repetition :: others => by
    rw [Repetition.eventsFrom]
    exact (wellNested_repetition ⟨index, size⟩ repetition).append
      (wellNested_repetitions size (index + 1) others)

theorem wellNested_repetition (rank : Rank) : ∀ repetition : Repetition,
    WellNested [.node (.repetition repetition) (some rank)] (repetition.events rank)
  | .mk element cardinality => by
    rw [Repetition.events]
    exact wellNested_within (.repetition (.mk element cardinality))
      ((wellNested_element element).append (wellNested_node? wellNested_cardinality cardinality))

theorem wellNested_element : ∀ element : Element,
    WellNested [.node (.element element) none] element.events
  | .group pattern => by
    have closed := (wellNested_pattern pattern).append (wellNested_leaf .delimiter ")")
    rw [Element.events]
    exact wellNested_within (.element (.group pattern))
      (wellNested_within (.group pattern) (closed.leaf .delimiter "("))
  | .filter filter => by
    rw [Element.events]
    exact wellNested_within (.element (.filter filter)) (wellNested_filter filter)
  | .atom atom => by
    rw [Element.events]
    exact wellNested_within (.element (.atom atom)) (wellNested_atom atom)

end

theorem wellNested_expression (rank : Rank) (expression : Expression) :
    WellNested [.node (.expression expression) (some rank)] (expression.events rank) := by
  have parts := (wellNested_pattern expression.pattern).append
    (wellNested_leaf? .note expression.note)
  exact wellNested_within (.expression expression)
    ((parts.leaf .delimiter ":").leaf .lowercase expression.name)

theorem wellNested_document (document : Document) :
    WellNested [.node (.document document) none] document.events := by
  have notice : WellNested [.node (.notice document.notice) none] _ :=
    wellNested_within (.notice document.notice) (wellNested_leaf .comment document.notice)
  have rules := wellNested_eachFrom wellNested_rule document.rules document.rules.length 1
  have expressions := wellNested_eachFrom wellNested_expression document.expressions
    document.expressions.length 1
  have parts := rules.append (expressions.leaf .comment document.trailing)
  exact wellNested_within (.document document)
    (notice.append (parts.leaf .comment document.leading))

/-! ## Walks that are cut -/

section Cutting

variable {σ : Type}

/-- The follower with a record of the events that it was shown. -/
def logged (visit : Event → Follow σ Unit) (event : Event) : Follow (List Event × σ) Unit :=
  ExceptT.mk fun seen =>
    let (result, state) := (visit event).runOn seen.2
    (result, (seen.1 ++ [event], state))

/-- The follower goes on at each of the events, from the one state to the other. -/
inductive GoesThrough (visit : Event → Follow σ Unit) : σ → List Event → σ → Prop
  | nil (state : σ) : GoesThrough visit state [] state
  | cons {before middle after : σ} {event : Event} {events : List Event}
      (passed : (visit event).runOn before = (.ok (), middle))
      (others : GoesThrough visit middle events after) : GoesThrough visit before (event :: events) after

/-- How a follower comes to the end of a walk, with the events that it was shown: it goes through all
of them, or it stops with a fault at the first one that it does not go on from. -/
inductive Ends (visit : Event → Follow σ Unit) (events : List Event) (before : σ) :
    Except Fault Unit → List Event → σ → Prop
  | completed {after : σ} (goes : GoesThrough visit before events after) :
      Ends visit events before (.ok ()) events after
  | cut (number : Nat) {event : Event} {middle after : σ} {fault : Fault}
      (goes : GoesThrough visit before (events.take number) middle)
      (met : events[number]? = some event)
      (failed : (visit event).runOn middle = (.error fault, after)) :
      Ends visit events before (.error fault) (events.take (number + 1)) after

variable {visit : Event → Follow σ Unit} {events later shown : List Event} {before middle after : σ}
  {result : Except Fault Unit}

theorem GoesThrough.runOn_follow (goes : GoesThrough visit before events middle)
    (later : List Event) :
    (follow visit (events ++ later)).runOn before = (follow visit later).runOn middle := by
  induction goes with
  | nil state => rfl
  | cons passed _ ih => rw [List.cons_append, follow, Follow.runOn_bind passed, ih]

theorem GoesThrough.logged (goes : GoesThrough visit before events after) (front : List Event) :
    GoesThrough (logged visit) (front, before) events (front ++ events, after) := by
  induction goes generalizing front with
  | nil state =>
      rw [List.append_nil]
      exact .nil (front, state)
  | @cons before middle after event events passed _ ih =>
      have recorded : (Walk.logged visit event).runOn (front, before) =
          (.ok (), (front ++ [event], middle)) :=
        congrArg (fun found : Except Fault Unit × σ => (found.1, (front ++ [event], found.2))) passed
      have others := ih (front ++ [event])
      rw [List.append_assoc, List.singleton_append] at others
      exact .cons recorded others

theorem Ends.runOn_follow (ends : Ends visit events before result shown after) :
    (follow visit events).runOn before = (result, after) := by
  cases ends with
  | completed goes =>
      have whole := goes.runOn_follow []
      rw [List.append_nil] at whole
      exact whole
  | @cut number event middle _ fault goes met failed =>
      have split : events = events.take number ++ event :: events.drop (number + 1) := by
        rcases List.getElem?_eq_some_iff.mp met with ⟨inside, rfl⟩
        rw [← List.drop_eq_getElem_cons inside, List.take_append_drop]
      rw [split, goes.runOn_follow, follow, Follow.runOn_bind_error failed]

theorem Ends.logged (ends : Ends visit events before result shown after) :
    Ends (logged visit) events ([], before) result shown (shown, after) := by
  cases ends with
  | completed goes => exact .completed (goes.logged [])
  | @cut number event middle _ fault goes met failed =>
      have recorded : (Walk.logged visit event).runOn (events.take number, middle) =
          (.error fault, (events.take number ++ [event], after)) :=
        congrArg (fun found : Except Fault Unit × σ =>
          (found.1, (events.take number ++ [event], found.2))) failed
      have taken : events.take (number + 1) = events.take number ++ [event] := by
        rw [List.take_add_one, met, Option.toList_some]
      rw [← taken] at recorded
      exact .cut number (goes.logged []) met recorded

theorem Ends.cons {event : Event} (passed : (visit event).runOn before = (.ok (), middle))
    (others : Ends visit events middle result shown after) :
    Ends visit (event :: events) before result (event :: shown) after := by
  cases others with
  | completed goes => exact .completed (.cons passed goes)
  | cut number goes met failed => exact .cut (number + 1) (.cons passed goes) met failed

/-- A walk ends in some way. -/
theorem exists_ends (visit : Event → Follow σ Unit) (events : List Event) (before : σ) :
    ∃ result shown after, Ends visit events before result shown after := by
  induction events generalizing before with
  | nil => exact ⟨_, _, _, .completed (.nil before)⟩
  | cons event events ih =>
      cases visited : (visit event).runOn before with
      | mk outcome middle =>
          cases outcome with
          | error fault => exact ⟨_, _, _, .cut 0 (.nil before) rfl visited⟩
          | ok done =>
              rcases ih middle with ⟨result, shown, after, ends⟩
              exact ⟨_, _, _, ends.cons visited⟩

end Cutting

/-- The events that a walk shows are well nested, whatever the document is: the document is entered and
left, and so is everything in it. Any follower is shown just these events, from the first on and up to
the one at which it stops, and the walk ends with the fault that it stops with and in the state in which
it stops. -/
theorem walk_nested_and_cut (document : Document) :
    ∃ calls, Recorder.transcript document none = (.ok (), calls) ∧
      WellNested [.node (.document document) none] calls ∧
      ∀ (σ : Type) (visit : Event → Follow σ Unit) (before after : σ) (result : Except Fault Unit)
        (shown : List Event), Ends visit calls before result shown after ↔
          (document.walk (logged visit)).runOn ([], before) = (result, (shown, after)) ∧
            (document.walk visit).runOn before = (result, after) := by
  refine ⟨document.events, transcript_whole document, wellNested_document document, ?_⟩
  intro σ visit before after result shown
  rw [Document.walk_eq, Document.walk_eq]
  constructor
  · intro ends
    exact ⟨ends.logged.runOn_follow, ends.runOn_follow⟩
  · rintro ⟨recorded, _⟩
    rcases exists_ends visit document.events before with ⟨result', shown', after', ends⟩
    have found := ends.logged.runOn_follow
    rw [recorded] at found
    cases found
    exact ends

end Walk
end GrammarBook
