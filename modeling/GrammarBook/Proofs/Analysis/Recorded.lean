import GrammarBook.Proofs.Analysis.Compiled
import GrammarBook.Proofs.Validation.Parts
import GrammarBook.Proofs.Walk.Nested

namespace GrammarBook

open Walk

/-!
# Fragments that an analyzer records

What an analyzer has recorded for an expression when it comes to the end of a document is what a
recursion on the pattern alone gives. The recursion makes a quantifier lazy where the element before
it has the intrinsic for any character among its parts. The parts of an element reach through texts,
filters and groups, but not through the names in it. A glyph or an intrinsic for which the recursion
has nothing to write would have stopped the analyzer.
-/

/-! ## Wildcards among the parts -/

def Part.any : Part := .leaf .intrinsic "ANY"

theorem isWildcard_iff {name : String} :
    isWildcard name = true ↔ Part.any ∈ [Part.leaf .intrinsic name] := by
  rw [isWildcard, beq_iff_eq, List.mem_singleton, Part.any, Part.leaf.injEq]
  exact ⟨fun same => ⟨rfl, same.symm⟩, fun same => same.2.symm⟩

theorem Bounded.any_not_mem_parts (bounded : Bounded) : Part.any ∉ bounded.parts := by
  simp [Part.any, parts, Part.leaf?]

theorem Cardinality.any_not_mem_parts? (cardinality : Option Cardinality) :
    Part.any ∉ Cardinality.parts? cardinality := by
  rcases cardinality with _ | mark | constraint
  · exact List.not_mem_nil
  · simp [Part.any, parts?, parts]
  · simp [Part.any, parts?, parts, Constraint.parts, Part.leaf?]

theorem Character.isWildcard_iff {character : Character} :
    character.isWildcard = true ↔ Part.any ∈ character.parts := by
  cases character with
  | bounded range => exact iff_of_false Bool.false_ne_true range.any_not_mem_parts
  | intrinsic name => exact GrammarBook.isWildcard_iff

theorem Filter.hasWildcard_iff {filter : Filter} :
    filter.characters.any Character.isWildcard = true ↔ Part.any ∈ filter.parts := by
  have own : Part.any ∉ .filter filter :: Part.leaf? .excluded filter.excluded := by
    simp [Part.any, Part.leaf?]
  rw [parts, ← List.cons_append, List.mem_append, or_iff_right own, List.any_eq_true,
    List.mem_flatMap]
  exact exists_congr fun character => and_congr_right fun _ => Character.isWildcard_iff

theorem Atom.isWildcard_iff {atom : Atom} : atom.isWildcard = true ↔ Part.any ∈ atom.parts := by
  cases atom with
  | bounded range => exact iff_of_false Bool.false_ne_true range.any_not_mem_parts
  | intrinsic name => exact GrammarBook.isWildcard_iff
  | literal text => simp [isWildcard, parts, Part.any]
  | lowercase name => simp [isWildcard, parts, Part.any]

mutual

/-- A pattern contains a wildcard if its parts do. -/
theorem Pattern.hasWildcard_iff : (pattern : Pattern) →
    (pattern.hasWildcard = true ↔ Part.any ∈ pattern.parts)
  | .mk first alternatives => by
    rw [Pattern.hasWildcard, Pattern.parts, Bool.or_eq_true, List.mem_append,
      Sequence.hasWildcard_iff first, Sequence.someWildcard_iff alternatives]

theorem Sequence.someWildcard_iff : (sequences : List Sequence) →
    (Sequence.someWildcard sequences = true ↔ Part.any ∈ Sequence.listParts sequences)
  | [] => iff_of_false Bool.false_ne_true List.not_mem_nil
  | sequence :: others => by
    rw [Sequence.someWildcard, Sequence.listParts, Bool.or_eq_true, List.mem_append,
      Sequence.hasWildcard_iff sequence, Sequence.someWildcard_iff others]

theorem Sequence.hasWildcard_iff : (sequence : Sequence) →
    (sequence.hasWildcard = true ↔ Part.any ∈ sequence.parts)
  | .mk repetitions => Repetition.someWildcard_iff repetitions

theorem Repetition.someWildcard_iff : (repetitions : List Repetition) →
    (Repetition.someWildcard repetitions = true ↔ Part.any ∈ Repetition.listParts repetitions)
  | [] => iff_of_false Bool.false_ne_true List.not_mem_nil
  | repetition :: others => by
    rw [Repetition.someWildcard, Repetition.listParts, Bool.or_eq_true, List.mem_append,
      Repetition.hasWildcard_iff repetition, Repetition.someWildcard_iff others]

theorem Repetition.hasWildcard_iff : (repetition : Repetition) →
    (repetition.hasWildcard = true ↔ Part.any ∈ repetition.parts)
  | .mk element cardinality => by
    rw [Repetition.hasWildcard, Repetition.parts, List.mem_append,
      or_iff_left (Cardinality.any_not_mem_parts? cardinality), Element.hasWildcard_iff element]

theorem Element.hasWildcard_iff : (element : Element) →
    (element.hasWildcard = true ↔ Part.any ∈ element.parts)
  | .group pattern => Pattern.hasWildcard_iff pattern
  | .filter _ => Filter.hasWildcard_iff
  | .atom _ => Atom.isWildcard_iff

end

/-- Behind an element with a wildcard a cardinality is lazy. -/
theorem Repetition.fragments_of_any {element : Element} (contains : Part.any ∈ element.parts)
    (cardinality : Cardinality) :
    (Repetition.mk element (some cardinality)).fragments =
      element.fragments ++ [Fragment.text cardinality.quantifier, .text "?"] := by
  rw [Repetition.fragments, (Element.hasWildcard_iff element).mpr contains]
  rfl

/-- Behind any other element it is not. -/
theorem Repetition.fragments_of_not_any {element : Element} (lacks : Part.any ∉ element.parts)
    (cardinality : Cardinality) :
    (Repetition.mk element (some cardinality)).fragments =
      element.fragments ++ [Fragment.text cardinality.quantifier] := by
  have tame : element.hasWildcard = false :=
    Bool.eq_false_iff.mpr fun wild => lacks ((Element.hasWildcard_iff element).mp wild)
  rw [Repetition.fragments, tame]
  rfl

/-! ## Nothing is left out -/

/-- There is something to write for the part. -/
def Part.IsSpelled : Part → Prop
  | leaf .glyph glyph => ∃ c, Token.glyphCharacter? glyph = some c
  | leaf .intrinsic name => ∀ inFilter, ∃ regex, Regex.intrinsic? name inFilter = some regex
  | _ => True

/-- The event does not end an expression. -/
def Walk.Event.IsInside (event : Event) : Prop :=
  ∀ expression rank, event ≠ .leave (.expression expression) rank

/-- A pattern ends no expression, as it begins none. -/
theorem Pattern.events_isInside (pattern : Pattern) : ∀ event ∈ pattern.events, event.IsInside := by
  rintro _ member expression rank rfl
  have entered := (wellNested_pattern pattern).entered member
  have defined := List.filterMap_eq_nil_iff.mp (shows_pattern pattern).defined _ entered
  cases defined

theorem Walk.exists_infix_eachFrom {α : Type} (walk : Rank → α → List Event) {members : List α}
    {member : α} (among : member ∈ members) (size index : Nat) :
    ∃ rank, walk rank member <:+: eachFrom size walk index members := by
  induction members generalizing index with
  | nil => exact absurd among List.not_mem_nil
  | cons first others ih =>
      rw [eachFrom]
      rcases List.mem_cons.mp among with rfl | later
      · exact ⟨⟨index, size⟩, (List.prefix_append ..).isInfix⟩
      · rcases ih later (index + 1) with ⟨rank, inside⟩
        exact ⟨rank, inside.trans (List.suffix_append ..).isInfix⟩

/-- The walk through a document goes through each of its expressions. -/
theorem Document.exists_infix_events (document : Document) {expression : Expression}
    (member : expression ∈ document.expressions) :
    ∃ rank, expression.events rank <:+: document.events := by
  rcases exists_infix_eachFrom Expression.events member
    document.expressions.length 1 with ⟨rank, inside⟩
  refine ⟨rank, inside.trans ⟨.enter (.document document) none ::
    (within (.notice document.notice) none [Event.leaf .comment document.notice] ++
      .leaf .comment document.leading ::
        (each Rule.events document.rules ++ [Event.leaf .comment document.trailing])),
    [.leave (.document document) none], ?_⟩⟩
  simp [Document.events, within, each]

/-- An intrinsic is known in filters if it is known outside of them. -/
theorem intrinsic?_eq_none_iff {name : String} (inFilter other : Bool) :
    Regex.intrinsic? name inFilter = none ↔ Regex.intrinsic? name other = none := by
  unfold Regex.intrinsic?
  grind

namespace Findings

variable {findings : Findings} {event : Event}

theorem endRepetition_inExpression (repetition : Repetition) (findings : Findings) :
    (Analyzer.endRepetition repetition findings).inExpression = findings.inExpression := by
  unfold Analyzer.endRepetition
  split
  · rfl
  · rfl
  · rw [← mark_true]
    split
    · rfl
    · rfl

/-- Up to its end one stands in an expression. -/
theorem step_inExpression (inside : findings.inExpression = true) (stays : event.IsInside) :
    (findings.step event).inExpression = true := by
  cases event with
  | leaf kind text =>
      cases kind
      all_goals simp only [step, leaf, inside, if_true, write_inExpression, mark_inExpression]
  | enter node rank =>
      cases node
      case bounded bounded =>
        simp only [step, opened]
        split
        · exact inside
        · exact inside
      case text atom =>
        cases atom
        all_goals exact inside
      case expression => rfl
      all_goals exact inside
  | leave node rank =>
      cases node
      case expression expression => exact absurd rfl (stays expression rank)
      case bounded bounded =>
        simp only [step, closed]
        split
        · exact inside
        · exact inside
      case constrained constraint => simp only [step, closed, inside, if_true, write_inExpression]
      case repetition repetition => exact (endRepetition_inExpression repetition findings).trans inside
      all_goals exact inside

end Findings

namespace Analyzer

variable {analyzer after : Analyzer} {events : List Event}

/-- The analyzer finds nothing wrong with the event. -/
def Accepts (analyzer : Analyzer) (event : Event) : Prop :=
  analyzer.findings.violation? event = none

def next (analyzer : Analyzer) (event : Event) : Analyzer :=
  analyzer.withFindings (analyzer.findings.step event)

theorem Accepts.isSpelled {kind : Kind} {text : String}
    (inside : analyzer.findings.inExpression = true) (accepts : analyzer.Accepts (.leaf kind text)) :
    (Part.leaf kind text).IsSpelled := by
  cases kind
  case glyph =>
    refine Option.ne_none_iff_exists'.mp fun absent => ?_
    rw [Accepts, Findings.violation?, if_pos ⟨inside, absent⟩] at accepts
    cases accepts
  case intrinsic =>
    have known : Regex.intrinsic? text analyzer.findings.inFilter ≠ none := by
      intro absent
      rw [Accepts, Findings.violation?, if_pos absent] at accepts
      cases accepts
    exact fun inFilter => Option.ne_none_iff_exists'.mp
      (fun absent => known ((intrinsic?_eq_none_iff inFilter _).mp absent))
  all_goals trivial

/-- In an expression whatever an analyzer goes through is spelled. -/
theorem isSpelled_of_passesAll {kind : Kind} {text : String}
    (inside : analyzer.findings.inExpression = true) (stays : ∀ event ∈ events, event.IsInside)
    (passes : PassesAll Accepts next analyzer events) (member : .leaf kind text ∈ events) :
    (Part.leaf kind text).IsSpelled := by
  induction events generalizing analyzer with
  | nil => exact absurd member List.not_mem_nil
  | cons event events ih =>
      rcases passes with ⟨first, others⟩
      rcases List.forall_mem_cons.mp stays with ⟨staysFirst, staysOthers⟩
      rcases List.mem_cons.mp member with rfl | later
      · exact first.isSpelled inside
      · exact ih (Findings.step_inExpression inside staysFirst) staysOthers others later

/-- Where there is an analysis, there is something to write for every part of a pattern. -/
theorem isSpelled_of_analyze {document : Document} {analysis : Analysis}
    (analyzed : (analyzer.analyze document).1 = .ok analysis) {expression : Expression}
    (member : expression ∈ document.expressions) :
    ∀ part ∈ expression.pattern.parts, part.IsSpelled := by
  have ran := follows_of_analyze analyzed
  rw [Document.walk_eq] at ran
  have followed := (follow_runOn_iff visit_runOn_iff).mp ran
  rcases document.exists_infix_events member with ⟨rank, front, back, walked⟩
  rw [← walked] at followed
  have inExpression := (passesAll_append.mp (passesAll_append.mp followed.1).1).2
  -- Behind its start, its name and the colon an expression goes on with the walk through its pattern.
  rcases inExpression with ⟨_, _, _, behindColon⟩
  have inPattern := (passesAll_append.mp (passesAll_append.mp behindColon).1).1
  intro part among
  rcases part with ⟨kind, text⟩ | _ | _ | _ | _
  case leaf =>
    by_cases other : kind = .delimiter
    · subst other
      trivial
    · rw [← (shows_pattern expression.pattern).shown, ← leaf_mem_iff other] at among
      exact isSpelled_of_passesAll rfl expression.pattern.events_isInside inPattern among
  all_goals trivial

/-! ## Recording -/

/-- Where expressions have names of their own, an analyzer that comes to the end of a document has
recorded for each expression the fragments that a recursion on its pattern gives, and draws the
analysis from these. Nothing in a pattern is left out, and a cardinality is lazy exactly where the
element before it contains the intrinsic for any character. -/
theorem analyze_records_fragments (analyzer : Analyzer) {document : Document} {analysis : Analysis}
    (distinct : (document.expressions.map (·.name)).Nodup)
    (analyzed : (analyzer.analyze document).1 = .ok analysis) :
    ∃ after : Analyzer,
      (document.walk visit).runOn (analyzer.withFindings {}) = (.ok (), after) ∧
      conclude analyzer.delimiterName after.findings = .ok analysis ∧
      after.findings.patterns.entries =
        document.expressions.map (fun expression => (expression.name, expression.fragments)) ∧
      (∀ expression ∈ document.expressions, ∀ part ∈ expression.pattern.parts, part.IsSpelled) ∧
      ∀ (element : Element) (cardinality : Cardinality),
        (Part.any ∈ element.parts →
          (Repetition.mk element (some cardinality)).fragments =
            element.fragments ++ [.text cardinality.quantifier, .text "?"]) ∧
        (Part.any ∉ element.parts →
          (Repetition.mk element (some cardinality)).fragments =
            element.fragments ++ [.text cardinality.quantifier]) := by
  have follows := follows_of_analyze analyzed
  refine ⟨_, follows, (analyze_of_follow follows).symm.trans analyzed,
    Document.entries_compiled distinct, fun _ => isSpelled_of_analyze analyzed, ?_⟩
  exact fun element cardinality => ⟨fun contains => Repetition.fragments_of_any contains cardinality,
    fun lacks => Repetition.fragments_of_not_any lacks cardinality⟩

/-- A document with a wildcard in a filter in a group, and one behind a name. -/
def wildDocument : Document :=
  { notice := "!>\nn\n<!"
    leading := "!>\nl\n<!"
    rules := [⟨"R", .inlined [.reference ⟨.lower "a", none⟩] none⟩]
    trailing := "!>\n<!"
    expressions :=
      [⟨"a", .mk (.mk
          [.mk (.group (.mk
              (.mk [.mk (.filter ⟨none, [.bounded ⟨"'x'", some "'z'"⟩, .intrinsic "ANY"]⟩) none])
              [.mk [.mk (.atom (.lowercase "b")) (some (.quantified "*"))]]))
            (some (.quantified "+")),
          .mk (.atom (.bounded ⟨"'0'", some "'9'"⟩)) (some (.constrained ⟨"2", some ⟨none⟩⟩))]) [],
        none⟩,
      ⟨"b", .mk (.mk [.mk (.atom (.intrinsic "ANY")) none]) [], none⟩] }

set_option maxRecDepth 2000 in
/-- The group is repeated lazily, the name in it and the range behind it are not. -/
theorem wildDocument_recorded :
    (wildDocument.expressions.map (·.name)).Nodup ∧
      ∃ (analysis : Analysis) (after : Analyzer),
        (({} : Analyzer).analyze wildDocument).1 = .ok analysis ∧
        (wildDocument.walk visit).runOn (({} : Analyzer).withFindings {}) = (.ok (), after) ∧
        after.findings.patterns.entries =
          [("a", [.text "(?:", .text "(?:", .text "[", .text "x", .text "-", .text "z",
              .text "\\s\\S", .text "]", .text "|", .reference "b", .text "*", .text ")", .text "+",
              .text "?", .text "[", .text "0", .text "-", .text "9", .text "]", .text "\x7b2,\x7d",
              .text ")"]),
            ("b", [.text "(?:", .text ".", .text ")"])] := by
  have succeeds : ∃ analysis, (({} : Analyzer).analyze wildDocument).1 = .ok analysis := ⟨_, rfl⟩
  rcases succeeds with ⟨analysis, analyzed⟩
  have distinct : (wildDocument.expressions.map (·.name)).Nodup := by decide
  rcases analyze_records_fragments {} distinct analyzed with ⟨after, follows, _, entries, _⟩
  exact ⟨distinct, analysis, after, analyzed, follows, entries⟩

end Analyzer

end GrammarBook
