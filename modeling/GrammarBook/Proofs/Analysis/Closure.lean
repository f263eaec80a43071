import GrammarBook.Proofs.Analysis.Attributes
import GrammarBook.Proofs.Analysis.Resolution
import GrammarBook.Proofs.Layout.RoundTrip

namespace GrammarBook

/-!
# Closed analyses

An analysis keeps its names in lists and in tables. In the analysis of a valid source these agree in
order, and whatever an attribute refers to or a plural is of is among the names. An expression for
the literals is added to lists and tables alike, and only where it has literals to stand for and no
expression has its name.
-/

/-- The lists of an analysis are the keys of its tables, and all that it refers to is listed. -/
structure Analysis.IsClosed (analysis : Analysis) : Prop where
  distinctRules : analysis.ruleNames.Nodup
  ruleKeys : analysis.references.keys = analysis.ruleNames
  ascendingExpressions : analysis.expressionNames.Pairwise (· < ·)
  expressionKeys : analysis.regexes.keys = analysis.expressionNames
  nodes : ∀ rule attributes, analysis.attributesOf? rule = some attributes →
    ∀ entry ∈ attributes, entry.kind = .node → entry.identifier ∈ analysis.ruleNames
  tokens : ∀ rule attributes, analysis.attributesOf? rule = some attributes →
    ∀ entry ∈ attributes, entry.kind = .token → entry.identifier ∈ analysis.expressionNames
  plurals : ∀ name ∈ analysis.plurals.toList,
    name ∈ analysis.ruleNames ∨ name ∈ analysis.expressionNames

/-! ## Listed names -/

theorem NameSet.isEmpty_eq_false_iff {names : NameSet} :
    names.isEmpty = false ↔ ∃ name, name ∈ names.toList :=
  List.isEmpty_eq_false_iff_exists_mem

namespace Analyzer

variable {delimiterName name : String} {document : Document} {regexes : NameTable String}
  {analysis : Analysis}

theorem keys_of_concludes (valid : document.IsValid)
    (concludes : Concludes delimiterName document.findings regexes analysis) :
    regexes.keys = document.expressions.map (·.name) := by
  obtain ⟨_, _, keys, _⟩ := FragmentTable.resolved_of_resolve concludes.resolved
  rw [keys, NameTable.keys]
  change document.compiled.entries.map (·.1) = _
  rw [Document.entries_compiled valid.distinctExpressions, List.map_map]
  rfl

/-- The names of the expressions are all listed. -/
theorem mem_expressionNames_iff (concludes : Concludes delimiterName document.findings regexes analysis) :
    name ∈ analysis.expressionNames ↔ name ∈ document.expressions.map (·.name) ∨
      addsDelimiter delimiterName document.findings regexes = true ∧ name = delimiterName := by
  rw [concludes.expressionNames]
  split
  · rename_i adds
    rw [(List.mergeSort_perm _ _).mem_iff, List.mem_append, List.mem_singleton, adds]
    exact or_congr_right (and_iff_right rfl).symm
  · rename_i keeps
    exact (or_iff_left fun adds => keeps adds.1).symm

theorem addsDelimiter_iff (valid : document.IsValid)
    (concludes : Concludes delimiterName document.findings regexes analysis) :
    addsDelimiter delimiterName document.findings regexes = true ↔
      delimiterName ∉ document.expressions.map (·.name) ∧
        ∃ rule ∈ document.rules, ∃ text, .leaf .literal text ∈ rule.parts := by
  have unknown : regexes.contains delimiterName = false ↔
      delimiterName ∉ document.expressions.map (·.name) := by
    rw [← keys_of_concludes valid concludes, ← NameTable.contains_iff, Bool.not_eq_true]
  have literal : document.findings.literals.isEmpty = false ↔
      ∃ rule ∈ document.rules, ∃ text, .leaf .literal text ∈ rule.parts := by
    rw [NameSet.isEmpty_eq_false_iff]
    simp only [Document.mem_literals_iff, List.mem_flatMap, Rule.mem_literals_iff]
    constructor
    · rintro ⟨text, rule, member, literal, isPart, rfl⟩
      exact ⟨rule, member, literal, isPart⟩
    · rintro ⟨rule, member, literal, isPart⟩
      exact ⟨_, rule, member, literal, isPart, rfl⟩
  rw [addsDelimiter, Bool.and_eq_true, Bool.not_eq_true', Bool.not_eq_true', unknown, literal]

/-! ## What is referred to -/

variable {rule : Rule} {occurrence : Occurrence}

theorem node_mem_ruleNames (valid : document.IsValid)
    (concludes : Concludes delimiterName document.findings regexes analysis)
    (isRule : rule ∈ document.rules) (member : occurrence ∈ rule.definition.occurrences)
    (isNode : occurrence.identifier.attributeKind = .node) :
    occurrence.identifier.name ∈ analysis.ruleNames := by
  have isPart := Document.parts_of_mem_occurrences isRule member
  rw [concludes.ruleNames]
  cases identified : occurrence.identifier with
  | lower name =>
      rw [identified] at isNode
      cases isNode
  | upper name =>
      rw [identified] at isPart
      exact valid.definedRules name (isPart List.mem_cons_self)

theorem token_mem_expressionNames (valid : document.IsValid)
    (concludes : Concludes delimiterName document.findings regexes analysis)
    (isRule : rule ∈ document.rules) (member : occurrence ∈ rule.definition.occurrences)
    (isToken : occurrence.identifier.attributeKind = .token) :
    occurrence.identifier.name ∈ analysis.expressionNames := by
  have isPart := Document.parts_of_mem_occurrences isRule member
  rw [mem_expressionNames_iff concludes]
  cases identified : occurrence.identifier with
  | upper name =>
      rw [identified] at isToken
      cases isToken
  | lower name =>
      rw [identified] at isPart
      exact .inl (valid.definedExpressions name (isPart List.mem_cons_self))

/-- An attribute stands for an occurrence in the rule. -/
theorem exists_occurrence (valid : document.IsValid)
    (concludes : Concludes delimiterName document.findings regexes analysis)
    {attributes : List Attribute} (found : analysis.attributesOf? name = some attributes)
    {entry : Attribute} (member : entry ∈ attributes) :
    ∃ rule ∈ document.rules, ∃ occurrence ∈ rule.definition.occurrences,
      entry.identifier = occurrence.identifier.name ∧
        entry.kind = occurrence.identifier.attributeKind := by
  rw [Analysis.attributesOf?, concludes.references, NameTable.get?_eq_some_iff,
    Document.entries_references valid.distinctRules] at found
  obtain ⟨rule, isRule, same⟩ := List.mem_map.mp found
  cases same
  have merged : entry.occurrence ∈ rule.definition.merged := by
    rw [← Occurrence.map_attributes rule.definition.merged]
    exact List.mem_map_of_mem member
  obtain ⟨origin, noted, same⟩ := List.mem_map.mp
    (Definition.identifier_mem_merged.mp (List.mem_map_of_mem merged))
  refine ⟨rule, isRule, origin, noted, ?_, ?_⟩
  · rw [same]
    exact entry.name_referent.symm
  · rw [same]
    exact entry.attributeKind_referent.symm

theorem isClosed_of_concludes (valid : document.IsValid)
    (ascending : Reading.IsAscending document.expressions)
    (concludes : Concludes delimiterName document.findings regexes analysis) :
    analysis.IsClosed where
  distinctRules := by
    rw [concludes.ruleNames]
    exact valid.distinctRules
  ruleKeys := by
    rw [concludes.references, concludes.ruleNames, Document.keys_references valid.distinctRules]
    rfl
  ascendingExpressions := by
    rw [concludes.expressionNames]
    split
    · rename_i adds
      refine Reading.pairwise_mergeSort_names (List.nodup_append.mpr
        ⟨valid.distinctExpressions, List.nodup_singleton _, fun name known other added => ?_⟩)
      rw [List.mem_singleton.mp added]
      rintro rfl
      exact ((addsDelimiter_iff valid concludes).mp adds).1 known
    · exact Reading.pairwise_lt_of_nodup valid.distinctExpressions (List.pairwise_map.mpr ascending)
  expressionKeys := by
    have keys := keys_of_concludes valid concludes
    rw [concludes.regexes, concludes.expressionNames]
    split
    · rename_i adds
      have unknown := ((addsDelimiter_iff valid concludes).mp adds).1
      rw [← keys] at unknown
      rw [NameTable.keys_sorted, NameTable.keys_put unknown, keys]
      rfl
    · exact keys
  nodes := by
    intro rule attributes found entry member isNode
    obtain ⟨rule, isRule, occurrence, noted, named, kind⟩ :=
      exists_occurrence valid concludes found member
    rw [named]
    exact node_mem_ruleNames valid concludes isRule noted (kind.symm.trans isNode)
  tokens := by
    intro rule attributes found entry member isToken
    obtain ⟨rule, isRule, occurrence, noted, named, kind⟩ :=
      exists_occurrence valid concludes found member
    rw [named]
    exact token_mem_expressionNames valid concludes isRule noted (kind.symm.trans isToken)
  plurals := by
    intro name plural
    rw [concludes.plurals, Document.mem_plurals_iff] at plural
    obtain ⟨rule, isRule, occurrence, noted, _, rfl⟩ := plural
    cases kind : occurrence.identifier.attributeKind with
    | node => exact .inl (node_mem_ruleNames valid concludes isRule noted kind)
    | token => exact .inr (token_mem_expressionNames valid concludes isRule noted kind)

end Analyzer

/-- The analysis of a valid source is closed. The name for the literals is among its expressions
exactly where the document defines it or has a literal in a rule. -/
theorem analysis_isClosed (parser : Parser) (validator : Validator) (analyzer : Analyzer)
    {source : String} {document : Document} {analysis : Analysis}
    (read : parser.parse source = .ok document)
    (accepted : (validator.validate document).1 = .ok ())
    (analyzed : (analyzer.analyze document).1 = .ok analysis) :
    analysis.IsClosed ∧
      (analyzer.delimiterName ∈ analysis.expressionNames ↔
        (∃ expression ∈ document.expressions, expression.name = analyzer.delimiterName) ∨
          ∃ rule ∈ document.rules, ∃ text, .leaf .literal text ∈ rule.parts) := by
  have valid := Document.isValid_of_validate accepted
  have ascending := (parser.hasSource_of_parse read).ascending
  obtain ⟨regexes, concludes⟩ := Analyzer.concludes_of_analyze analyzed
  refine ⟨Analyzer.isClosed_of_concludes valid ascending concludes, ?_⟩
  rw [Analyzer.mem_expressionNames_iff concludes, Analyzer.addsDelimiter_iff valid concludes,
    and_iff_left rfl, ← List.mem_map (f := fun expression : Expression => expression.name)]
  constructor
  · rintro (known | ⟨_, literal⟩)
    · exact .inl known
    · exact .inr literal
  · rintro (known | literal)
    · exact .inl known
    · exact or_iff_not_imp_left.mpr fun unknown => ⟨unknown, literal⟩

/-- A source with a literal in a rule. -/
def delimitedSource : String :=
  "!>\nn\n<!\n!>\nl\n<!\nR: a+ \"-\"\n!>\n<!\na: \"x\"\n"

def delimitedDocument : Document :=
  { notice := "!>\nn\n<!"
    leading := "!>\nl\n<!"
    rules :=
      [⟨"R", .inlined
        [.reference ⟨.lower "a", some (.quantified "+")⟩, .literal "\"-\""] none⟩]
    trailing := "!>\n<!"
    expressions := [Reading.atomExpression "a" (.literal "\"x\"")] }

theorem parse_delimitedSource : ({} : Parser).parse delimitedSource = .ok delimitedDocument := by
  have scanned : Token.scan delimitedSource =
      [⟨.comment, "!>\nn\n<!", ⟨1, 1⟩⟩, ⟨.newline, "\n", ⟨3, 3⟩⟩,
        ⟨.comment, "!>\nl\n<!", ⟨4, 1⟩⟩, ⟨.newline, "\n", ⟨6, 3⟩⟩,
        ⟨.uppercase, "R", ⟨7, 1⟩⟩, ⟨.delimiter, ":", ⟨7, 2⟩⟩, ⟨.lowercase, "a", ⟨7, 4⟩⟩,
        ⟨.quantified, "+", ⟨7, 5⟩⟩, ⟨.literal, "\"-\"", ⟨7, 7⟩⟩, ⟨.newline, "\n", ⟨7, 10⟩⟩,
        ⟨.comment, "!>\n<!", ⟨8, 1⟩⟩, ⟨.newline, "\n", ⟨9, 3⟩⟩,
        ⟨.lowercase, "a", ⟨10, 1⟩⟩, ⟨.delimiter, ":", ⟨10, 2⟩⟩, ⟨.literal, "\"x\"", ⟨10, 4⟩⟩,
        ⟨.newline, "\n", ⟨10, 7⟩⟩, ⟨.eof, "", ⟨11, 1⟩⟩] := by
    decide +kernel
  have ascending : Reading.IsAscending delimitedDocument.expressions := List.pairwise_singleton _ _
  exact Parser.parse_of_read {} ⟨[], []⟩ scanned ascending rfl

/-- The literal brings the name for the literals into the analysis. -/
theorem delimitedSource_isClosed :
    ∃ analysis, (({} : Analyzer).analyze delimitedDocument).1 = .ok analysis ∧
      analysis.IsClosed ∧ "delimiter" ∈ analysis.expressionNames := by
  obtain ⟨analysis, analyzed⟩ : ∃ analysis,
      (({} : Analyzer).analyze delimitedDocument).1 = .ok analysis := ⟨_, rfl⟩
  obtain ⟨closed, listed⟩ := analysis_isClosed {} {} {} parse_delimitedSource rfl analyzed
  refine ⟨analysis, analyzed, closed, listed.mpr (.inr ⟨_, List.mem_singleton_self _, "\"-\"", ?_⟩)⟩
  simp [Rule.parts, Definition.parts, Term.listParts, Term.parts]

end GrammarBook
