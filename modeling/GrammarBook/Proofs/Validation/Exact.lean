import GrammarBook.Proofs.Validation.Parts
import GrammarBook.Validator
import Mathlib.Data.List.Nodup

namespace GrammarBook

open Walk

/-!
# Valid documents

A validator follows a document to its end exactly if every part of the document is right by itself,
the names that it defines are distinct, and all names that it uses are defined. What a validator asks
of an event depends on the events before it; over a whole walk that comes down to the parts.
-/

/-- The name of a rule. -/
def Identifier.upper? : Identifier → Option String
  | upper name => some name
  | lower _ => none

/-- The name of an expression. -/
def Identifier.lower? : Identifier → Option String
  | upper _ => none
  | lower name => some name

/-- The part is right by itself: a leaf is spelled as a token of its kind, and ranges ascend. -/
def Part.IsSound : Part → Prop
  | leaf kind text => kind.accepts text = true
  | bounded range => ∀ last, range.extent = some last →
    ∃ low high, Token.glyphCharacter? range.glyph = some low ∧
      Token.glyphCharacter? last = some high ∧ low ≤ high
  | constraint counts => ∀ maximum, counts.limit.bind (·.maximum) = some maximum →
    ∃ low high, Text.readCount counts.minimum = some low ∧
      Text.readCount maximum = some high ∧ low ≤ high
  | filter set => set.LeavesSome
  | use _ => True

/-- What is asked of a document. -/
structure Document.IsValid (document : Document) : Prop where
  sound : ∀ part ∈ document.parts, part.IsSound
  distinctRules : (document.rules.map (·.name)).Nodup
  distinctExpressions : (document.expressions.map (·.name)).Nodup
  definedRules : ∀ name, .use (.upper name) ∈ document.parts → name ∈ document.rules.map (·.name)
  definedExpressions : ∀ name, .use (.lower name) ∈ document.parts →
    name ∈ document.expressions.map (·.name)

namespace Validator

variable {before after : Validator}

/-! ## Single checks -/

theorem stopWith_runOn_iff {violation : Option Violation} :
    (stopWith violation).runOn before = (.ok (), after) ↔ violation = none ∧ after = before := by
  cases violation with
  | none =>
      constructor
      · rintro ⟨⟩
        exact ⟨rfl, rfl⟩
      · rintro ⟨_, rfl⟩
        rfl
  | some violation =>
      constructor
      · rintro ⟨⟩
      · rintro ⟨⟨⟩, _⟩

theorem checkSpelling_runOn_iff {kind : Kind} {text : String} :
    (checkSpelling kind text).runOn before = (.ok (), after) ↔
      kind.accepts text = true ∧ after = before := by
  have same : checkSpelling kind text =
      stopWith (if kind.accepts text then none else some (.misspelled kind text)) := by
    rw [checkSpelling]
    split <;> rfl
  rw [same, stopWith_runOn_iff]
  refine and_congr_left' ?_
  split <;> simp [*]

theorem checkLeaf_runOn_iff {kind : Kind} {text : String} :
    (checkLeaf kind text).runOn before = (.ok (), after) ↔
      kind.accepts text = true ∧ (Event.leaf kind text = .any → before.excluding = false) ∧
        after = before := by
  have excluded : Follow.runOn (do
        if kind = .intrinsic ∧ text = "ANY" ∧ (← get).excluding then stop .excludesAny :
          Follow Validator Unit) before = (.ok (), after) ↔
      (Event.leaf kind text = .any → before.excluding = false) ∧ after = before := by
    change Follow.runOn (if _ then _ else _ : Follow Validator Unit) before = _ ↔ _
    rw [Event.any, Event.leaf.injEq]
    split
    · rename_i any
      constructor
      · rintro ⟨⟩
      · rintro ⟨none, _⟩
        rw [none ⟨any.1, any.2.1⟩] at any
        cases any.2.2
    · rename_i some
      constructor
      · rintro ⟨⟩
        exact ⟨fun any => Bool.eq_false_iff.mpr fun inside => some ⟨any.1, any.2, inside⟩, rfl⟩
      · rintro ⟨_, rfl⟩
        rfl
  rw [checkLeaf, Follow.runOn_bind_iff]
  constructor
  · rintro ⟨_, middle, spelled, ran⟩
    obtain ⟨accepted, rfl⟩ := checkSpelling_runOn_iff.mp spelled
    exact ⟨accepted, excluded.mp ran⟩
  · rintro ⟨accepted, ran⟩
    exact ⟨(), before, checkSpelling_runOn_iff.mpr ⟨accepted, rfl⟩, excluded.mpr ran⟩

theorem unlessThen_runOn_iff {condition : Prop} [Decidable condition] {violation : Violation}
    {change : Validator → Validator} :
    Follow.runOn (do
      if condition then stop violation
      modify change) before = (.ok (), after) ↔ ¬ condition ∧ after = change before := by
  split
  · rename_i holds
    constructor
    · rintro ⟨⟩
    · rintro ⟨fails, _⟩
      exact absurd holds fails
  · rename_i fails
    constructor
    · rintro ⟨⟩
      exact ⟨fails, rfl⟩
    · rintro ⟨_, rfl⟩
      rfl

theorem defineRule_runOn_iff {name : String} :
    (defineRule name).runOn before = (.ok (), after) ↔
      name ∉ before.rules ∧ after = { before with rules := name :: before.rules } :=
  unlessThen_runOn_iff

theorem defineExpression_runOn_iff {name : String} :
    (defineExpression name).runOn before = (.ok (), after) ↔
      name ∉ before.expressions ∧
        after = { before with expressions := name :: before.expressions } :=
  unlessThen_runOn_iff

/-- All names that have been used have been defined. -/
def KnowsAll (validator : Validator) : Prop :=
  (∀ name ∈ validator.referencedRules.toList, name ∈ validator.rules) ∧
    ∀ name ∈ validator.referencedExpressions.toList, name ∈ validator.expressions

theorem checkReferences_runOn_iff :
    checkReferences.runOn before = (.ok (), after) ↔ before.KnowsAll ∧ after = before := by
  change Follow.runOn (do
      stopWith ((before.referencedRules.firstOutside? before.rules).map .ruleUndefined)
      stopWith ((before.referencedExpressions.firstOutside? before.expressions).map
        .expressionUndefined)) before = _ ↔ _
  rw [Follow.runOn_bind_iff, KnowsAll, ← NameSet.firstOutside?_eq_none_iff,
    ← NameSet.firstOutside?_eq_none_iff]
  constructor
  · rintro ⟨⟨⟩, middle, first, second⟩
    obtain ⟨rules, rfl⟩ := stopWith_runOn_iff.mp first
    obtain ⟨expressions, same⟩ := stopWith_runOn_iff.mp second
    exact ⟨⟨Option.map_eq_none_iff.mp rules, Option.map_eq_none_iff.mp expressions⟩, same⟩
  · rintro ⟨⟨rules, expressions⟩, same⟩
    exact ⟨(), before, stopWith_runOn_iff.mpr ⟨Option.map_eq_none_iff.mpr rules, rfl⟩,
      stopWith_runOn_iff.mpr ⟨Option.map_eq_none_iff.mpr expressions, same⟩⟩

theorem rangeViolation?_eq_none_iff {first last : String} :
    rangeViolation? first last = none ↔ ∃ low high, Token.glyphCharacter? first = some low ∧
      Token.glyphCharacter? last = some high ∧ low ≤ high := by
  rw [rangeViolation?]
  cases Token.glyphCharacter? first <;> cases Token.glyphCharacter? last <;> simp

theorem countViolation?_eq_none_iff {minimum maximum : String} :
    countViolation? minimum maximum = none ↔ ∃ low high, Text.readCount minimum = some low ∧
      Text.readCount maximum = some high ∧ low ≤ high := by
  rw [countViolation?]
  cases Text.readCount minimum <;> cases Text.readCount maximum <;> simp

/-! ## Events -/

/-- What a validator asks of an event by itself. -/
def IsSound : Event → Prop
  | .leaf kind text => kind.accepts text = true
  | .enter (.bounded range) _ => (Part.bounded range).IsSound
  | .enter (.constrained counts) _ => (Part.constraint counts).IsSound
  | _ => True

/-- The event ends a document. -/
def IsEnd : Event → Prop
  | .leave (.document _) _ => True
  | _ => False

def used? (event : Event) : Option Identifier :=
  match event.part? with
  | some (.use identifier) => some identifier
  | _ => none

/-- What a validator asks of an event when it comes to it. -/
structure Passes (validator : Validator) (event : Event) : Prop where
  sound : IsSound event
  newRule : ∀ name, event.defined? = some (.upper name) → name ∉ validator.rules
  newExpression : ∀ name, event.defined? = some (.lower name) → name ∉ validator.expressions
  allowed : event = .any → validator.excluding = false
  known : IsEnd event → validator.KnowsAll

/-- What a validator takes notice of. -/
def step (validator : Validator) (event : Event) : Validator where
  rules := (event.defined?.bind Identifier.upper?).toList ++ validator.rules
  expressions := (event.defined?.bind Identifier.lower?).toList ++ validator.expressions
  referencedRules := ((used? event).bind Identifier.upper?).elim validator.referencedRules
    validator.referencedRules.insert
  referencedExpressions := ((used? event).bind Identifier.lower?).elim
    validator.referencedExpressions validator.referencedExpressions.insert
  excluding := event.exclusion validator.excluding

theorem bounded_isSound_iff {range : Bounded} :
    (Part.bounded range).IsSound ↔ range.extent.bind (rangeViolation? range.glyph) = none := by
  rw [Option.bind_eq_none_iff, Part.IsSound]
  simp only [rangeViolation?_eq_none_iff]

theorem constraint_isSound_iff {counts : Constraint} :
    (Part.constraint counts).IsSound ↔
      (counts.limit.bind (·.maximum)).bind (countViolation? counts.minimum) = none := by
  rw [Option.bind_eq_none_iff, Part.IsSound]
  simp only [countViolation?_eq_none_iff]

/-- Nothing more than soundness is asked of most events. -/
theorem passes_iff_isSound {event : Event} (defines : event.defined? = none)
    (other : event ≠ .any) (goesOn : ¬ IsEnd event) : before.Passes event ↔ IsSound event := by
  refine ⟨fun passes => passes.sound, fun sound => ⟨sound, ?_, ?_, fun any => absurd any other,
    fun ends => absurd ends goesOn⟩⟩
  · simp [defines]
  · simp [defines]

theorem passes_leaf_iff {kind : Kind} {text : String} :
    before.Passes (.leaf kind text) ↔
      kind.accepts text = true ∧ (Event.leaf kind text = .any → before.excluding = false) := by
  constructor
  · intro passes
    exact ⟨passes.sound, passes.allowed⟩
  · rintro ⟨spelled, allowed⟩
    exact ⟨spelled, fun _ defines => (by cases defines), fun _ defines => (by cases defines),
      allowed, fun ends => False.elim ends⟩

theorem passes_rule_iff {rule : Rule} {rank : Option Rank} :
    before.Passes (.enter (.rule rule) rank) ↔ rule.name ∉ before.rules := by
  refine ⟨fun passes => passes.newRule rule.name rfl, fun new => ⟨trivial, ?_,
    fun _ defines => (by cases defines), fun same => (by cases same), fun ends => ends.elim⟩⟩
  rintro _ ⟨⟩
  exact new

theorem passes_expression_iff {expression : Expression} {rank : Option Rank} :
    before.Passes (.enter (.expression expression) rank) ↔
      expression.name ∉ before.expressions := by
  refine ⟨fun passes => passes.newExpression expression.name rfl, fun new => ⟨trivial,
    fun _ defines => (by cases defines), ?_, fun same => (by cases same), fun ends => ends.elim⟩⟩
  rintro _ ⟨⟩
  exact new

theorem passes_bounded_iff {range : Bounded} {rank : Option Rank} :
    before.Passes (.enter (.bounded range) rank) ↔
      range.extent.bind (rangeViolation? range.glyph) = none :=
  (passes_iff_isSound rfl (fun same => by cases same) id).trans bounded_isSound_iff

theorem passes_constrained_iff {counts : Constraint} {rank : Option Rank} :
    before.Passes (.enter (.constrained counts) rank) ↔
      (counts.limit.bind (·.maximum)).bind (countViolation? counts.minimum) = none :=
  (passes_iff_isSound rfl (fun same => by cases same) id).trans constraint_isSound_iff

theorem passes_end_iff {document : Document} {rank : Option Rank} :
    before.Passes (.leave (.document document) rank) ↔ before.KnowsAll :=
  ⟨fun passes => passes.known trivial, fun known => ⟨trivial, fun _ defines => (by cases defines),
    fun _ defines => (by cases defines), fun same => (by cases same), fun _ => known⟩⟩

/-- A validator goes on past every event of which it only takes notice. -/
theorem noticed_runOn_iff {event : Event} (notices : visit event = modify (step · event))
    (sound : IsSound event) (defines : event.defined? = none) (other : event ≠ .any)
    (goesOn : ¬ IsEnd event) :
    (visit event).runOn before = (.ok (), after) ↔
      before.Passes event ∧ after = before.step event := by
  rw [notices, and_iff_right ((passes_iff_isSound defines other goesOn).mpr sound)]
  exact ⟨fun ran => by cases ran; rfl, fun same => same ▸ rfl⟩

/-- A validator goes on exactly where an event passes. -/
theorem visit_runOn_iff (event : Event) (before after : Validator) :
    (visit event).runOn before = (.ok (), after) ↔
      before.Passes event ∧ after = before.step event := by
  cases event with
  | leaf kind text =>
      have steady : before.step (.leaf kind text) = before := by cases kind <;> rfl
      rw [steady, passes_leaf_iff, and_assoc]
      exact checkLeaf_runOn_iff
  | enter node rank =>
      cases node
      case rule => exact defineRule_runOn_iff.trans (and_congr_left' passes_rule_iff.symm)
      case expression =>
        exact defineExpression_runOn_iff.trans (and_congr_left' passes_expression_iff.symm)
      case bounded => exact stopWith_runOn_iff.trans (and_congr_left' passes_bounded_iff.symm)
      case constrained =>
        exact stopWith_runOn_iff.trans (and_congr_left' passes_constrained_iff.symm)
      -- What these two do depends on which alternative of the node stands there.
      case identifier identifier =>
        cases identifier <;> exact noticed_runOn_iff rfl trivial rfl (fun same => by cases same) id
      case text atom =>
        cases atom <;> exact noticed_runOn_iff rfl trivial rfl (fun same => by cases same) id
      all_goals exact noticed_runOn_iff rfl trivial rfl (fun same => by cases same) id
  | leave node rank =>
      cases node
      case document => exact checkReferences_runOn_iff.trans (and_congr_left' passes_end_iff.symm)
      all_goals exact noticed_runOn_iff rfl trivial rfl (fun same => by cases same) id

/-! ## Walks -/

variable {validator : Validator} {events : List Event} {names : List Identifier}
  {parts : List Part}

/-- The names are distinct and not among those known. -/
def NewTo : List String → List String → Prop
  | _, [] => True
  | known, name :: names => name ∉ known ∧ NewTo (name :: known) names

theorem newTo_iff {known list : List String} :
    NewTo known list ↔ list.Nodup ∧ ∀ name ∈ list, name ∉ known := by
  induction list generalizing known with
  | nil => simp [NewTo]
  | cons name list ih =>
      rw [NewTo, ih, List.nodup_cons, List.forall_mem_cons]
      simp only [List.mem_cons, not_or, forall_and]
      grind

/-- Where no document ends, the checks of a whole walk come apart. -/
theorem passesAll_iff (goesOn : ∀ event ∈ events, ¬ IsEnd event) :
    PassesAll Passes step validator events ↔
      (∀ event ∈ events, IsSound event) ∧ AnyAllowed validator.excluding events ∧
      NewTo validator.rules ((events.filterMap Event.defined?).filterMap Identifier.upper?) ∧
      NewTo validator.expressions
        ((events.filterMap Event.defined?).filterMap Identifier.lower?) := by
  induction events generalizing validator with
  | nil => simp [PassesAll, AnyAllowed, NewTo]
  | cons event events ih =>
      obtain ⟨first, others⟩ := List.forall_mem_cons.mp goesOn
      have passes : validator.Passes event ↔ IsSound event ∧
          (event = .any → validator.excluding = false) ∧
          (∀ name, event.defined? = some (.upper name) → name ∉ validator.rules) ∧
          ∀ name, event.defined? = some (.lower name) → name ∉ validator.expressions :=
        ⟨fun passes => ⟨passes.sound, passes.allowed, passes.newRule, passes.newExpression⟩,
          fun fits => ⟨fits.1, fits.2.2.1, fits.2.2.2, fits.2.1, fun ends => absurd ends first⟩⟩
      rw [PassesAll, passes, ih others, List.forall_mem_cons, AnyAllowed]
      simp only [step]
      rcases defined : event.defined? with _ | name | name
      · simp [defined]
        tauto
      · simp [defined, Identifier.upper?, Identifier.lower?, NewTo]
        tauto
      · simp [defined, Identifier.upper?, Identifier.lower?, NewTo]
        tauto

/-- What every event adds to a state, a walk has added in the end. -/
theorem mem_foldl_step (known : Validator → List String) (added : Event → Option Identifier)
    {name : String} {identifier : Identifier}
    (one : ∀ validator event, name ∈ known (validator.step event) ↔
      name ∈ known validator ∨ added event = some identifier) :
    name ∈ known (events.foldl step validator) ↔
      name ∈ known validator ∨ identifier ∈ events.filterMap added := by
  induction events generalizing validator with
  | nil => simp
  | cons event events ih =>
      rw [List.foldl_cons, ih, one, or_assoc, List.mem_filterMap, List.mem_filterMap]
      simp only [List.mem_cons, or_and_right, exists_or, exists_eq_left]

theorem mem_used_iff {identifier : Identifier} :
    identifier ∈ events.filterMap used? ↔ .use identifier ∈ events.filterMap Event.part? := by
  simp only [List.mem_filterMap]
  refine exists_congr fun event => and_congr_right' ?_
  rw [used?]
  split <;> simp_all

/-- At the end of a walk the names used are known if they are among those defined. -/
theorem knowsAll_foldl_iff (shows : Shows events names parts) :
    (events.foldl step {}).KnowsAll ↔
      (∀ name, .use (.upper name) ∈ parts → .upper name ∈ names) ∧
        ∀ name, .use (.lower name) ∈ parts → .lower name ∈ names := by
  have rules (name : String) :
      name ∈ (events.foldl step {}).rules ↔ .upper name ∈ names := by
    rw [mem_foldl_step rules Event.defined?, shows.defined]
    · exact or_iff_right List.not_mem_nil
    · intro validator event
      rcases defined : event.defined? with _ | other | other <;>
        simp [step, defined, Identifier.upper?, or_comm, eq_comm]
  have expressions (name : String) :
      name ∈ (events.foldl step {}).expressions ↔ .lower name ∈ names := by
    rw [mem_foldl_step expressions Event.defined?, shows.defined]
    · exact or_iff_right List.not_mem_nil
    · intro validator event
      rcases defined : event.defined? with _ | other | other <;>
        simp [step, defined, Identifier.lower?, or_comm, eq_comm]
  have usedRules (name : String) :
      name ∈ (events.foldl step {}).referencedRules.toList ↔ .use (.upper name) ∈ parts := by
    rw [mem_foldl_step (·.referencedRules.toList) used?, mem_used_iff, shows.shown]
    · exact or_iff_right List.not_mem_nil
    · intro validator event
      rcases used : used? event with _ | other | other <;>
        simp [step, used, Identifier.upper?, or_comm, eq_comm]
  have usedExpressions (name : String) :
      name ∈ (events.foldl step {}).referencedExpressions.toList ↔
        .use (.lower name) ∈ parts := by
    rw [mem_foldl_step (·.referencedExpressions.toList) used?, mem_used_iff, shows.shown]
    · exact or_iff_right List.not_mem_nil
    · intro validator event
      rcases used : used? event with _ | other | other <;>
        simp [step, used, Identifier.lower?, or_comm, eq_comm]
  rw [KnowsAll]
  simp only [rules, expressions, usedRules, usedExpressions]

theorem isSound_of_part? {event : Event} {part : Part} (shown : event.part? = some part)
    (sound : IsSound event) (other : ∀ filter, part ≠ .filter filter) : part.IsSound := by
  cases event with
  | leaf kind text =>
      cases kind
      case delimiter => cases shown
      all_goals
        cases shown
        exact sound
  | enter node rank =>
      cases node
      case text atom => cases atom <;> cases shown; trivial
      case filter filter => exact absurd (Option.some.inj shown).symm (other filter)
      all_goals
        cases shown
        try exact sound
  | leave node rank => cases shown

/-- What is asked of events by themselves and of where they stand is asked of the parts. -/
theorem isSound_iff (shows : Shows events names parts) :
    (∀ event ∈ events, IsSound event) ∧ AnyAllowed false events ↔ ∀ part ∈ parts, part.IsSound := by
  have exclusion : AnyAllowed false events ↔
      ∀ filter, .filter filter ∈ parts → filter.LeavesSome := by
    have whole := shows.exclusion []
    rwa [List.append_nil, AnyAllowed, and_true] at whole
  rw [exclusion]
  constructor
  · rintro ⟨sound, leaveSome⟩ part member
    rw [← shows.shown] at member
    obtain ⟨event, met, shown⟩ := List.mem_filterMap.mp member
    by_cases isFilter : ∃ filter, part = .filter filter
    · obtain ⟨filter, rfl⟩ := isFilter
      exact leaveSome filter (shows.shown ▸ member)
    · exact isSound_of_part? shown (sound event met) fun filter same => isFilter ⟨filter, same⟩
  · intro sound
    refine ⟨fun event met => ?_, fun filter member => sound (.filter filter) member⟩
    have ofPart (part : Part) (shown : event.part? = some part) : part.IsSound :=
      sound part (shows.shown ▸ List.mem_filterMap.mpr ⟨event, met, shown⟩)
    cases event with
    | leaf kind text =>
        cases kind
        case delimiter => exact shows.marks text met
        all_goals exact ofPart _ rfl
    | enter node rank =>
        cases node
        case bounded range => exact ofPart _ rfl
        case constrained counts => exact ofPart _ rfl
        all_goals trivial
    | leave node rank => trivial

end Validator

open Validator

theorem filterMap_upper?_definedNames (document : Document) :
    document.definedNames.filterMap Identifier.upper? = document.rules.map (·.name) := by
  simp [Document.definedNames, List.filterMap_map, Function.comp_def, Identifier.upper?]

theorem filterMap_lower?_definedNames (document : Document) :
    document.definedNames.filterMap Identifier.lower? = document.expressions.map (·.name) := by
  simp [Document.definedNames, List.filterMap_map, Function.comp_def, Identifier.lower?]

theorem upper_mem_definedNames {document : Document} {name : String} :
    .upper name ∈ document.definedNames ↔ name ∈ document.rules.map (·.name) := by
  simp [Document.definedNames]

theorem lower_mem_definedNames {document : Document} {name : String} :
    .lower name ∈ document.definedNames ↔ name ∈ document.expressions.map (·.name) := by
  simp [Document.definedNames]

/-- A validator without a past follows a document to its end exactly if the document is valid. -/
theorem Validator.follows_iff (document : Document) :
    (∃ after : Validator, (document.walk visit).runOn {} = (.ok (), after)) ↔
      document.IsValid := by
  obtain ⟨events, walk, shows⟩ := shows_document document
  have goesOn : ∀ event ∈ events, ¬ IsEnd event := by
    intro event met ends
    cases event with
    | leaf kind text => exact ends
    | enter node rank => exact ends
    | leave node rank =>
        cases node
        case document other => exact shows.goesOn other rank met
        all_goals exact ends
  have ends (state : Validator) :
      state.Passes (.leave (.document document) none) ↔ state.KnowsAll :=
    ⟨fun passes => passes.known trivial, fun known => ⟨trivial, fun _ defines => (by cases defines),
      fun _ defines => (by cases defines), fun same => (by cases same), fun _ => known⟩⟩
  have walked : PassesAll Passes step {} events ↔
      (∀ part ∈ document.parts, part.IsSound) ∧ (document.rules.map (·.name)).Nodup ∧
        (document.expressions.map (·.name)).Nodup := by
    rw [passesAll_iff goesOn, ← and_assoc, isSound_iff shows, newTo_iff, newTo_iff, shows.defined,
      filterMap_upper?_definedNames, filterMap_lower?_definedNames]
    simp only [List.not_mem_nil, not_false_eq_true, implies_true, and_true]
  simp only [Document.walk_eq, follow_runOn_iff visit_runOn_iff, exists_and_left, exists_eq,
    and_true]
  rw [walk, passesAll_append, PassesAll, PassesAll, and_true, ends, walked,
    knowsAll_foldl_iff shows]
  simp only [upper_mem_definedNames, lower_mem_definedNames]
  constructor
  · rintro ⟨⟨sound, rules, expressions⟩, usedRules, usedExpressions⟩
    exact ⟨sound, rules, expressions, usedRules, usedExpressions⟩
  · rintro ⟨sound, rules, expressions, usedRules, usedExpressions⟩
    exact ⟨⟨sound, rules, expressions⟩, usedRules, usedExpressions⟩

/-- What a validator makes of a document is what a new one makes of the walk through it. -/
theorem Validator.validate_eq (validator : Validator) (document : Document) :
    validator.validate document = (document.walk visit).runOn {} := by
  rw [validate, validating, Follow.runOn_set_bind]

theorem Document.isValid_of_validate {validator : Validator} {document : Document}
    (accepted : (validator.validate document).1 = .ok ()) : document.IsValid := by
  rw [Validator.validate_eq] at accepted
  exact (Validator.follows_iff document).mp ⟨_, Prod.ext accepted rfl⟩

/-- Whatever it has followed before, a validator accepts exactly the valid documents. -/
theorem Validator.validate_ok_iff (validator : Validator) (document : Document) :
    (validator.validate document).1 = .ok () ↔ document.IsValid := by
  refine ⟨Document.isValid_of_validate, fun valid => ?_⟩
  obtain ⟨after, follows⟩ := (Validator.follows_iff document).mpr valid
  exact congrArg Prod.fst follows

end GrammarBook
