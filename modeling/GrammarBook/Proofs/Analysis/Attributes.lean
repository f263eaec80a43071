import GrammarBook.Proofs.Analysis.Compiled
import GrammarBook.Proofs.Analysis.Merging
import GrammarBook.Proofs.Validation.Exact

namespace GrammarBook

/-!
# Attributes of the rules

The findings on a document give every rule the attributes of its own definition. An attribute is
made from an occurrence, and merging occurrences loses and invents no identifier, so whatever an
attribute stands for is a part of the rule. The literals of a rule are parts of it likewise.
-/

/-! ## Parts of occurrences -/

theorem Definition.identifier_mem_merged {definition : Definition} {identifier : Identifier} :
    identifier ∈ definition.merged.map (·.identifier) ↔
      identifier ∈ definition.occurrences.map (·.identifier) := by
  rcases definition with lines | ⟨terms, note⟩
  · exact Iff.rfl
  · rw [Definition.merged, Occurrence.identifiers_consolidate, List.mem_eraseDups]

mutual

theorem Term.parts_of_mem_occurrences {occurrence : Occurrence} {decided : Option Bool} :
    ∀ term : Term, occurrence ∈ term.occurrences decided →
      occurrence.identifier.parts ⊆ term.parts
  | .reference use, member => by
    rw [Term.occurrences, List.mem_singleton] at member
    subst member
    rw [Term.parts, Reference.parts]
    exact List.subset_append_left ..
  | .bracket terms cardinality, member => by
    rw [Term.occurrences] at member
    rw [Term.parts]
    exact List.subset_append_of_subset_left _ (Term.listParts_of_mem_occurrences terms member)
  | .literal text, member => by
    rw [Term.occurrences] at member
    cases member

theorem Term.listParts_of_mem_occurrences {occurrence : Occurrence} {decided : Option Bool} :
    ∀ terms : List Term, occurrence ∈ Term.listOccurrences decided terms →
      occurrence.identifier.parts ⊆ Term.listParts terms
  | [], member => by
    rw [Term.listOccurrences] at member
    cases member
  | term :: others, member => by
    rw [Term.listOccurrences] at member
    rw [Term.listParts]
    rcases List.mem_append.mp member with first | later
    · exact List.subset_append_of_subset_left _ (Term.parts_of_mem_occurrences term first)
    · exact List.subset_append_of_subset_right _ (Term.listParts_of_mem_occurrences others later)

end

theorem Definition.parts_of_mem_occurrences {definition : Definition} {occurrence : Occurrence}
    (member : occurrence ∈ definition.occurrences) :
    occurrence.identifier.parts ⊆ definition.parts := by
  rcases definition with lines | ⟨terms, note⟩
  · obtain ⟨line, among, rfl⟩ := List.mem_map.mp member
    exact fun part isPart =>
      List.mem_flatMap.mpr ⟨line, among, List.mem_append_left _ isPart⟩
  · exact List.subset_append_of_subset_left _ (Term.listParts_of_mem_occurrences terms member)

namespace Document

variable {document : Document} {rule : Rule} {occurrence : Occurrence}

theorem parts_of_mem_rules (isRule : rule ∈ document.rules) : rule.parts ⊆ document.parts := by
  intro part inRule
  rw [parts]
  simp only [List.mem_cons, List.mem_append, List.mem_flatMap]
  exact .inr (.inr (.inl ⟨rule, isRule, inRule⟩))

/-- What occurs in a rule is a part of a document with that rule. -/
theorem parts_of_mem_occurrences (isRule : rule ∈ document.rules)
    (member : occurrence ∈ rule.definition.occurrences) :
    occurrence.identifier.parts ⊆ document.parts := by
  intro part isPart
  apply parts_of_mem_rules isRule
  exact List.mem_cons_of_mem _ (Definition.parts_of_mem_occurrences member isPart)

theorem parts_of_mem_merged (isRule : rule ∈ document.rules)
    (member : occurrence ∈ rule.definition.merged) :
    occurrence.identifier.parts ⊆ document.parts := by
  obtain ⟨origin, noted, same⟩ := List.mem_map.mp
    (Definition.identifier_mem_merged.mp (List.mem_map_of_mem member))
  rw [← same]
  exact parts_of_mem_occurrences isRule noted

end Document

/-! ## Literals -/

def Part.literalText? : Part → Option String
  | .leaf .literal text => some (Token.literalText text)
  | _ => none

theorem Part.filterMap_leaf? {kind : Kind} (other : kind ≠ .literal) (text : Option String) :
    (Part.leaf? kind text).filterMap Part.literalText? = [] := by
  cases text with
  | none => rfl
  | some text =>
      cases kind
      case literal => exact absurd rfl other
      all_goals rfl

theorem Cardinality.filterMap_parts? (cardinality : Option Cardinality) :
    (Cardinality.parts? cardinality).filterMap Part.literalText? = [] := by
  rcases cardinality with _ | mark | constraint
  · rfl
  · rfl
  · exact Part.filterMap_leaf? (by decide) _

theorem Identifier.filterMap_parts (identifier : Identifier) :
    identifier.parts.filterMap Part.literalText? = [] := by
  cases identifier with
  | lower name => rfl
  | upper name => rfl

mutual

theorem Term.filterMap_parts :
    ∀ term : Term, term.parts.filterMap Part.literalText? = term.literals
  | .reference use => by
    rw [Term.parts, Reference.parts, List.filterMap_append, Identifier.filterMap_parts,
      Cardinality.filterMap_parts?, Term.literals]
    rfl
  | .bracket terms cardinality => by
    rw [Term.parts, List.filterMap_append, Cardinality.filterMap_parts?, List.append_nil,
      Term.filterMap_listParts terms, Term.literals]
  | .literal text => by
    rw [Term.parts, Term.literals]
    rfl

theorem Term.filterMap_listParts :
    ∀ terms : List Term, (Term.listParts terms).filterMap Part.literalText? = Term.listLiterals terms
  | [] => by
    rw [Term.listParts, Term.listLiterals]
    rfl
  | term :: others => by
    rw [Term.listParts, List.filterMap_append, Term.filterMap_parts term,
      Term.filterMap_listParts others, Term.listLiterals]

end

/-- The literals of a rule are those among its parts. -/
theorem Rule.filterMap_parts (rule : Rule) :
    rule.parts.filterMap Part.literalText? = rule.definition.literals := by
  have note (note : Option String) :
      (Part.leaf? .note note).filterMap Part.literalText? = [] :=
    Part.filterMap_leaf? (by decide) note
  rw [Rule.parts]
  rcases rule.definition with lines | ⟨terms, written⟩
  · change (lines.flatMap Line.parts).filterMap Part.literalText? = []
    rw [List.filterMap_flatMap, List.flatMap_eq_nil_iff]
    intro line _
    rw [Line.parts, List.filterMap_append, Identifier.filterMap_parts, note]
    rfl
  · change (Term.listParts terms ++ Part.leaf? .note written).filterMap Part.literalText? = _
    rw [List.filterMap_append, Term.filterMap_listParts, note, List.append_nil]
    rfl

theorem Rule.mem_literals_iff {rule : Rule} {text : String} :
    text ∈ rule.definition.literals ↔
      ∃ literal, .leaf .literal literal ∈ rule.parts ∧ Token.literalText literal = text := by
  rw [← rule.filterMap_parts, List.mem_filterMap]
  constructor
  · rintro ⟨part, isPart, same⟩
    rcases part with ⟨kind, literal⟩ | _ | _ | _ | _
    case leaf =>
      cases kind
      case literal => exact ⟨literal, isPart, Option.some.inj same⟩
      all_goals cases same
    all_goals cases same
  · rintro ⟨literal, isPart, rfl⟩
    exact ⟨_, isPart, rfl⟩

/-! ## Findings on a document -/

namespace Document

variable {document : Document}

theorem mem_literals_iff {text : String} :
    text ∈ document.findings.literals.toList ↔
      text ∈ document.rules.flatMap fun rule => rule.definition.literals := by
  rw [findings, NameSet.mem_insertAll]
  exact or_iff_right List.not_mem_nil

theorem mem_plurals_iff {name : String} :
    name ∈ document.findings.plurals.toList ↔
      ∃ rule ∈ document.rules, ∃ occurrence ∈ rule.definition.occurrences,
        occurrence.isPlural = true ∧ occurrence.identifier.name = name := by
  rw [findings, NameSet.mem_insertAll]
  refine (or_iff_right List.not_mem_nil).trans ?_
  simp only [List.mem_flatMap, Occurrence.pluralNames, List.mem_map, List.mem_filter, and_assoc]

theorem entries_references (distinct : (document.rules.map (·.name)).Nodup) :
    document.findings.references.entries =
      document.rules.map fun rule => (rule.name, rule.attributes) := by
  refine NameTable.entries_putAll ?_
  rw [List.map_map]
  exact distinct

theorem keys_references (distinct : (document.rules.map (·.name)).Nodup) :
    document.findings.references.keys = document.rules.map (·.name) := by
  rw [NameTable.keys, entries_references distinct, List.map_map]
  rfl

theorem get?_references (distinct : (document.rules.map (·.name)).Nodup) {rule : Rule}
    (member : rule ∈ document.rules) :
    document.findings.references.get? rule.name = some rule.attributes := by
  rw [NameTable.get?_eq_some_iff, entries_references distinct]
  exact List.mem_map_of_mem (f := fun rule : Rule => (rule.name, rule.attributes)) member

end Document
end GrammarBook
