import GrammarBook.Proofs.Analysis.Faithful

namespace GrammarBook

open Walk

/-!
# What can go wrong in an analysis

A document that a validator has accepted leaves an analyzer one thing to object to: references
between expressions that lead back to where they start. Each of its other objections is met by what
the validator asks of the leaves, of the names that are used, and of the names that are defined.
-/

/-! ## Uses of expressions -/

/-- The name of the expression that a part uses. -/
def Part.expression? : Part → Option String
  | .use (.lower name) => some name
  | _ => none

theorem Part.filterMap_expression?_leaf? (kind : Kind) (text : Option String) :
    (Part.leaf? kind text).filterMap Part.expression? = [] := by
  cases text with
  | none => rfl
  | some text => rfl

theorem Cardinality.filterMap_expression? (cardinality : Option Cardinality) :
    (Cardinality.parts? cardinality).filterMap Part.expression? = [] := by
  rcases cardinality with _ | mark | constraint
  · rfl
  · rfl
  · exact Part.filterMap_expression?_leaf? _ _

theorem Bounded.filterMap_expression? (bounded : Bounded) :
    bounded.parts.filterMap Part.expression? = [] :=
  Part.filterMap_expression?_leaf? _ _

theorem Filter.filterMap_expression? (filter : Filter) :
    filter.parts.filterMap Part.expression? = [] := by
  change (Part.leaf? _ _ ++ filter.characters.flatMap Character.parts).filterMap _ = []
  rw [List.filterMap_append, Part.filterMap_expression?_leaf?, List.nil_append,
    List.filterMap_flatMap, List.flatMap_eq_nil_iff]
  intro character _
  cases character with
  | bounded range => exact range.filterMap_expression?
  | intrinsic name => rfl

theorem Atom.filterMap_expression? (atom : Atom) :
    atom.parts.filterMap Part.expression? = atom.names := by
  cases atom with
  | bounded range => exact range.filterMap_expression?
  | intrinsic | literal | lowercase => rfl

mutual

/-- The names that a pattern refers to are the expressions that its parts use. -/
theorem Pattern.filterMap_expression? :
    ∀ pattern : Pattern, pattern.parts.filterMap Part.expression? = pattern.names
  | .mk first alternatives => by
    rw [Pattern.parts, List.filterMap_append, Sequence.filterMap_expression? first,
      Sequence.filterMap_listExpression? alternatives, Pattern.names]

theorem Sequence.filterMap_listExpression? : ∀ sequences : List Sequence,
    (Sequence.listParts sequences).filterMap Part.expression? = Sequence.listNames sequences
  | [] => by
    rw [Sequence.listParts, Sequence.listNames]
    rfl
  | sequence :: others => by
    rw [Sequence.listParts, List.filterMap_append, Sequence.filterMap_expression? sequence,
      Sequence.filterMap_listExpression? others, Sequence.listNames]

theorem Sequence.filterMap_expression? :
    ∀ sequence : Sequence, sequence.parts.filterMap Part.expression? = sequence.names
  | .mk repetitions => by
    rw [Sequence.parts, Repetition.filterMap_listExpression? repetitions, Sequence.names]

theorem Repetition.filterMap_listExpression? : ∀ repetitions : List Repetition,
    (Repetition.listParts repetitions).filterMap Part.expression? = Repetition.listNames repetitions
  | [] => by
    rw [Repetition.listParts, Repetition.listNames]
    rfl
  | repetition :: others => by
    rw [Repetition.listParts, List.filterMap_append, Repetition.filterMap_expression? repetition,
      Repetition.filterMap_listExpression? others, Repetition.listNames]

theorem Repetition.filterMap_expression? :
    ∀ repetition : Repetition, repetition.parts.filterMap Part.expression? = repetition.names
  | .mk element cardinality => by
    rw [Repetition.parts, List.filterMap_append, Element.filterMap_expression? element,
      Cardinality.filterMap_expression?, List.append_nil, Repetition.names]

theorem Element.filterMap_expression? :
    ∀ element : Element, element.parts.filterMap Part.expression? = element.names
  | .group pattern => by
    rw [Element.parts, Pattern.filterMap_expression? pattern, Element.names]
  | .filter filter => by rw [Element.parts, filter.filterMap_expression?, Element.names]
  | .atom atom => by rw [Element.parts, atom.filterMap_expression?, Element.names]

end

/-! ## Circles -/

namespace Document

variable {document : Document} {name target : String}

/-- An expression of the name refers to the target. -/
def RefersTo (document : Document) (name target : String) : Prop :=
  ∃ expression ∈ document.expressions,
    expression.name = name ∧ target ∈ expression.pattern.names

/-- References between expressions lead from some name back to it. -/
def IsCircular (document : Document) : Prop :=
  ∃ name, Relation.TransGen document.RefersTo name name

/-- The table of a document has the references between its expressions. -/
theorem refers_iff_refersTo (distinct : (document.expressions.map (·.name)).Nodup) :
    document.compiled.Refers name target ↔ document.RefersTo name target := by
  constructor
  · intro refers
    have isKey := FragmentTable.mem_keys_of_refers refers
    obtain ⟨expression, member, rfl⟩ := List.mem_map.mp (mem_keys_compiled.mp isKey)
    exact ⟨expression, member, rfl, (refers_iff distinct member).mp refers⟩
  · rintro ⟨expression, member, rfl, names⟩
    exact (refers_iff distinct member).mpr names

theorem isCircular_iff (distinct : (document.expressions.map (·.name)).Nodup) :
    document.IsCircular ↔ ¬ document.compiled.IsAcyclic := by
  have same : document.compiled.Refers = document.RefersTo :=
    funext fun _ => funext fun _ => propext (refers_iff_refersTo distinct)
  rw [IsCircular, FragmentTable.IsAcyclic, not_forall]
  simp only [FragmentTable.Reaches, not_not, same]

/-- In a valid document every reference between expressions is defined. -/
theorem IsValid.isDefined (valid : document.IsValid) : document.compiled.IsDefined := by
  intro name target refers
  obtain ⟨expression, member, _, names⟩ :=
    (refers_iff_refersTo valid.distinctExpressions).mp refers
  rw [← Pattern.filterMap_expression?] at names
  obtain ⟨part, isPart, used⟩ := List.mem_filterMap.mp names
  obtain rfl : part = .use (.lower target) := by
    rcases part with _ | (_ | _) | _ | _ | _ <;> cases used
    rfl
  refine mem_keys_compiled.mpr (valid.definedExpressions target ?_)
  rw [parts]
  simp only [List.mem_cons, List.mem_append, List.mem_flatMap]
  exact .inr (.inr (.inr (.inr ⟨expression, member,
    List.mem_cons_of_mem _ (List.mem_append_left _ isPart)⟩)))

end Document

/-! ## Walks to the end -/

namespace Analyzer

variable {document : Document}

theorem glyph_not_violated {glyph : String} (accepted : Kind.glyph.accepts glyph = true)
    (findings : Findings) : findings.violation? (.leaf .glyph glyph) = none := by
  obtain ⟨c, quoted⟩ := exists_glyph accepted
  rw [Findings.violation?, quoted]
  exact if_neg fun violated => by cases violated.2

theorem intrinsic_not_violated {name : String} (accepted : Kind.intrinsic.accepts name = true)
    (findings : Findings) : findings.violation? (.leaf .intrinsic name) = none := by
  have known : ∀ name ∈ intrinsicNames, ∀ inFilter, Regex.intrinsic? name inFilter ≠ none := by
    decide
  have member := Kind.mem_intrinsicTexts_iff.mp (List.contains_iff_mem.mp accepted)
  exact if_neg (known name member findings.inFilter)

/-- What a validator asks of an event is all that an analyzer asks of it. -/
theorem not_violated_of_isSound {event : Event} (sound : Validator.IsSound event)
    (findings : Findings) : findings.violation? event = none := by
  cases event with
  | leaf kind text =>
      cases kind
      case glyph => exact glyph_not_violated sound findings
      case intrinsic => exact intrinsic_not_violated sound findings
      all_goals rfl
  | enter node rank => rfl
  | leave node rank => rfl

/-- An analyzer follows a valid document to its end. -/
theorem follows_of_isValid (valid : document.IsValid) (analyzer : Analyzer) :
    ∃ after, (document.walk visit).runOn analyzer = (.ok (), after) := by
  rw [Document.walk_eq]
  obtain ⟨events, walk, shows⟩ := shows_document document
  have sound := ((Validator.isSound_iff shows).mpr valid.sound).1
  refine follow_completes (fun event member findings => ?_) analyzer
  rw [walk] at member
  rcases List.mem_append.mp member with inner | last
  · exact not_violated_of_isSound (sound event inner) findings
  · rw [List.mem_singleton.mp last]
    rfl

/-- The analysis of a valid document comes down to drawing it from the findings. -/
theorem analyze_of_isValid (valid : document.IsValid) (analyzer : Analyzer) :
    (analyzer.analyze document).1 = conclude analyzer.delimiterName document.findings := by
  obtain ⟨after, follows⟩ := follows_of_isValid valid (analyzer.withFindings {})
  exact analyze_of_follow follows

end Analyzer

/-- Whatever an analyzer has gone through before, a document with rules that is accepted by a
validator is analyzed unless references between its expressions make a circle, and where they do
that circle is the fault. -/
theorem analyze_accepted (validator : Validator) (analyzer : Analyzer) {document : Document}
    (someRules : document.rules ≠ []) (accepted : (validator.validate document).1 = .ok ()) :
    (document.IsCircular →
      ∃ names, (analyzer.analyze document).1 = .error (.semantic (.circular names))) ∧
    (¬ document.IsCircular → ∃ analysis, (analyzer.analyze document).1 = .ok analysis) := by
  have valid := Document.isValid_of_validate accepted
  have defined := valid.isDefined
  obtain ⟨rule, rules, isFirst⟩ := List.exists_cons_of_ne_nil someRules
  have named : document.findings.documentName = some rule.name := by
    rw [Document.findings, isFirst]
    rfl
  rw [Analyzer.analyze_of_isValid valid, Document.isCircular_iff valid.distinctExpressions]
  constructor
  · intro circular
    obtain ⟨circle, failed, _⟩ := FragmentTable.resolve_of_circle defined circular
    exact ⟨_, Analyzer.conclude_of_unresolved named failed⟩
  · intro notCircular
    obtain ⟨regexes, resolved, _⟩ :=
      FragmentTable.resolve_of_acyclic defined (not_not.mp notCircular)
    exact Analyzer.conclude_of_resolve named resolved

/-- A document with two expressions that refer to each other. -/
def circularDocument : Document :=
  { Reading.smallDocument with
    expressions :=
      [Reading.atomExpression "a" (.lowercase "b"), Reading.atomExpression "b" (.lowercase "a")] }

theorem circularDocument_isCircular : circularDocument.IsCircular := by
  have first : circularDocument.RefersTo "a" "b" :=
    ⟨_, List.mem_cons_self, rfl, List.mem_singleton_self "b"⟩
  have second : circularDocument.RefersTo "b" "a" :=
    ⟨_, List.mem_cons_of_mem _ List.mem_cons_self, rfl, List.mem_singleton_self "a"⟩
  exact ⟨"a", .tail (.single first) second⟩

/-- It is valid, and its circle is found. -/
theorem circularDocument_rejected :
    circularDocument.validate = .ok () ∧
      ∃ names, (({} : Analyzer).analyze circularDocument).1 = .error (.semantic (.circular names)) :=
  ⟨rfl, (analyze_accepted {} {} (List.cons_ne_nil _ _) rfl).1 circularDocument_isCircular⟩

end GrammarBook
