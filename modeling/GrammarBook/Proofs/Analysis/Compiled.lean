import GrammarBook.Proofs.Analysis.Fragments
import GrammarBook.Proofs.Analysis.Rules
import GrammarBook.Proofs.Names.NameTable

namespace GrammarBook

open Walk

/-!
# What an analysis is made of

The walk through a document leaves behind what its rules and expressions are known by: their names,
the attributes of each rule, the literals, and the fragments of each expression. An analysis is drawn
from these findings: it can only succeed when there is a rule and all references are resolved.
-/

/-- Enters the fragments of expressions in their order. -/
def FragmentTable.putAll (table : FragmentTable) (expressions : List Expression) : FragmentTable :=
  expressions.foldl (fun table expression => table.put expression.name expression.fragments) table

/-- The fragments of all expressions by name. -/
def Document.compiled (document : Document) : FragmentTable :=
  FragmentTable.putAll .empty document.expressions

/-! ## Entries -/

/-- What an expression enters into a table. -/
def Expression.entry (expression : Expression) : String × List Fragment :=
  (expression.name, expression.fragments)

theorem FragmentTable.putAll_eq (table : FragmentTable) (expressions : List Expression) :
    table.putAll expressions = NameTable.putAll table (expressions.map Expression.entry) := by
  rw [NameTable.putAll, List.foldl_map]
  rfl

namespace Document

variable {document : Document}

theorem mem_keys_compiled {name : String} :
    name ∈ document.compiled.keys ↔ name ∈ document.expressions.map (·.name) := by
  rw [compiled, FragmentTable.putAll_eq, NameTable.mem_keys_putAll, List.map_map]
  exact or_iff_right List.not_mem_nil

theorem entries_compiled (distinct : (document.expressions.map (·.name)).Nodup) :
    document.compiled.entries = document.expressions.map Expression.entry := by
  rw [compiled, FragmentTable.putAll_eq, NameTable.entries_putAll]
  · rfl
  · rw [List.map_map]
    exact distinct

theorem get?_compiled (distinct : (document.expressions.map (·.name)).Nodup)
    {expression : Expression} (member : expression ∈ document.expressions) :
    document.compiled.get? expression.name = some expression.fragments := by
  rw [NameTable.get?_eq_some_iff, entries_compiled distinct]
  exact List.mem_map_of_mem member

end Document

/-! ## Walks through documents -/

namespace Findings

/-- The findings are those between the members of a document: in no rule and in no expression. -/
structure AtRest (findings : Findings) : Prop where
  occurrences : findings.occurrences = []
  brackets : findings.brackets = []
  inExpression : findings.inExpression = false
  inFilter : findings.inFilter = false
  fragments : findings.fragments = []
  wildcards : findings.wildcards = []

def addRules (findings : Findings) (rules : List Rule) : Findings :=
  { findings with
    documentName := findings.documentName.or (rules.map (·.name)).head?
    ruleNames := findings.ruleNames ++ rules.map (·.name)
    plurals := findings.plurals.insertAll
      (rules.flatMap fun rule => Occurrence.pluralNames rule.definition.occurrences)
    references := findings.references.putAll (rules.map fun rule => (rule.name, rule.attributes))
    literals := findings.literals.insertAll (rules.flatMap fun rule => rule.definition.literals) }

def addExpressions (findings : Findings) (expressions : List Expression) : Findings :=
  { findings with
    expressionNames := findings.expressionNames ++ expressions.map (·.name)
    patterns := findings.patterns.putAll expressions }

variable {findings : Findings}

theorem addRules_nil (findings : Findings) : findings.addRules [] = findings := by
  rw [addRules, List.map_nil, List.append_nil, List.head?_nil, Option.or_none]
  rfl

theorem addRules_cons (findings : Findings) (rule : Rule) (rules : List Rule) :
    (findings.addRules [rule]).addRules rules = findings.addRules (rule :: rules) := by
  rw [addRules, addRules, addRules]
  congr 1
  · rcases findings.documentName with _ | name <;> rfl
  · exact List.append_assoc ..
  · simp [NameSet.insertAll_insertAll]
  · simp [NameSet.insertAll_insertAll]

theorem addExpressions_nil (findings : Findings) : findings.addExpressions [] = findings := by
  rw [addExpressions, List.map_nil, List.append_nil]
  rfl

theorem addExpressions_cons (findings : Findings) (expression : Expression)
    (expressions : List Expression) :
    (findings.addExpressions [expression]).addExpressions expressions =
      findings.addExpressions (expression :: expressions) := by
  rw [addExpressions, addExpressions, addExpressions, List.append_assoc]
  rfl

theorem AtRest.addRules (rest : findings.AtRest) (rules : List Rule) :
    (findings.addRules rules).AtRest :=
  ⟨rest.occurrences, rest.brackets, rest.inExpression, rest.inFilter, rest.fragments, rest.wildcards⟩

theorem AtRest.addExpressions (rest : findings.AtRest) (expressions : List Expression) :
    (findings.addExpressions expressions).AtRest :=
  ⟨rest.occurrences, rest.brackets, rest.inExpression, rest.inFilter, rest.fragments, rest.wildcards⟩

/-- The walk through a rule. -/
theorem AtRest.foldl_rule (rest : findings.AtRest) (rank : Rank) (rule : Rule) :
    (rule.events rank).foldl step findings = findings.addRules [rule] := by
  have noted : rule.definition.events.foldl step (Analyzer.startRule rule.name findings) =
      (Analyzer.startRule rule.name findings).noteAll rule.definition.occurrences
        rule.definition.literals :=
    rule.definition.events_note rest.inExpression rest.brackets
  have ended : Analyzer.endRule rule ((Analyzer.startRule rule.name findings).noteAll
      rule.definition.occurrences rule.definition.literals) = findings.addRules [rule] := by
    rw [Findings.addRules, List.flatMap_singleton, List.flatMap_singleton]
    rcases findings with ⟨⟩
    obtain rfl := rest.occurrences
    rcases rule with ⟨name, lines | ⟨terms, note⟩⟩
    · rfl
    · rfl
  rw [Rule.events, within, List.foldl_cons, List.foldl_append]
  exact (congrArg (Analyzer.endRule rule) noted).trans ended

theorem AtRest.foldl_rules (rest : findings.AtRest) (rules : List Rule) (size index : Nat) :
    (eachFrom size Rule.events index rules).foldl step findings = findings.addRules rules := by
  induction rules generalizing findings index with
  | nil => exact findings.addRules_nil.symm
  | cons rule rules ih =>
      rw [eachFrom, List.foldl_append, rest.foldl_rule, ih (rest.addRules [rule]), addRules_cons]

/-- The walk through an expression. -/
theorem AtRest.foldl_expression (rest : findings.AtRest) (rank : Rank) (expression : Expression) :
    (expression.events rank).foldl step findings = findings.addExpressions [expression] := by
  have note : Adds false (leaf? .note expression.note) [] false := by
    cases expression.note with
    | none => exact adds_nil
    | some text => exact adds_silent (by simp) text
  have parts : Adds false (.leaf .lowercase expression.name :: Walk.mark ":" ::
      (expression.pattern.events ++ leaf? .note expression.note))
      (expression.pattern.fragments ++ []) (expression.pattern.hasWildcard || false) :=
    (((adds_pattern expression.pattern).append note).behindSilent (by simp)).behindSilent (by simp)
  rw [List.append_nil, Bool.or_false] at parts
  have written := parts (Analyzer.startExpression expression.name findings) rfl rest.inFilter
  have ended : Analyzer.endExpression expression.name
      (((Analyzer.startExpression expression.name findings).mark
        expression.pattern.hasWildcard).write expression.pattern.fragments) =
      findings.addExpressions [expression] := by
    rcases findings with ⟨⟩
    obtain ⟨rfl, rfl, rfl, rfl, rfl, rfl⟩ := rest
    rfl
  rw [Expression.events, within, List.foldl_cons, List.foldl_append]
  exact (congrArg (Analyzer.endExpression expression.name) written).trans ended

theorem AtRest.foldl_expressions (rest : findings.AtRest) (expressions : List Expression)
    (size index : Nat) :
    (eachFrom size Expression.events index expressions).foldl step findings =
      findings.addExpressions expressions := by
  induction expressions generalizing findings index with
  | nil => exact findings.addExpressions_nil.symm
  | cons expression expressions ih =>
      rw [eachFrom, List.foldl_append, rest.foldl_expression, ih (rest.addExpressions [expression]),
        addExpressions_cons]

end Findings

/-- The findings on a document. -/
def Document.findings (document : Document) : Findings :=
  { documentName := (document.rules.map (·.name)).head?
    notice := document.notice
    comment := document.leading
    ruleNames := document.rules.map (·.name)
    expressionNames := document.expressions.map (·.name)
    plurals := NameSet.empty.insertAll
      (document.rules.flatMap fun rule => Occurrence.pluralNames rule.definition.occurrences)
    references := NameTable.empty.putAll
      (document.rules.map fun rule => (rule.name, rule.attributes))
    literals := NameSet.empty.insertAll
      (document.rules.flatMap fun rule => rule.definition.literals)
    patterns := document.compiled }

/-- At the end of a walk an analyzer holds the findings on the document. -/
theorem Document.foldl_events (document : Document) :
    document.events.foldl Findings.step {} = document.findings := by
  have entered : ({ notice := document.notice, comment := document.leading } : Findings).AtRest :=
    ⟨rfl, rfl, rfl, rfl, rfl, rfl⟩
  have rules := entered.foldl_rules document.rules document.rules.length 1
  have expressions := (entered.addRules document.rules).foldl_expressions document.expressions
    document.expressions.length 1
  rw [Document.events, within, List.foldl_cons, List.append_assoc, List.foldl_append,
    List.cons_append, List.foldl_cons, List.append_assoc, List.foldl_append]
  refine (congrArg (List.foldl Findings.step · _) rules).trans ?_
  rw [List.cons_append, List.foldl_cons, List.foldl_append]
  exact congrArg (Findings.step · (.leave (.document document) none)) expressions

/-! ## Analyses -/

namespace Analyzer

/-- There are literals, and no expression stands for them. -/
def addsDelimiter (delimiterName : String) (findings : Findings) (regexes : NameTable String) :
    Bool :=
  !regexes.contains delimiterName && !findings.literals.isEmpty

/-- The analysis is drawn from the findings and from the regular expressions of their patterns. -/
structure Concludes (delimiterName : String) (findings : Findings) (regexes : NameTable String)
    (analysis : Analysis) : Prop where
  documentName : findings.documentName = some analysis.documentName
  resolved : findings.patterns.resolve = .ok regexes
  notice : analysis.notice = findings.notice
  comment : analysis.comment = findings.comment
  ruleNames : analysis.ruleNames = findings.ruleNames
  expressionNames : analysis.expressionNames =
    if addsDelimiter delimiterName findings regexes then
      (findings.expressionNames ++ [delimiterName]).mergeSort (· ≤ ·)
    else findings.expressionNames
  plurals : analysis.plurals = findings.plurals
  references : analysis.references = findings.references
  regexes : analysis.regexes =
    if addsDelimiter delimiterName findings regexes then
      (regexes.put delimiterName (Delimiter.regex findings.literals)).sorted
    else regexes

variable {analyzer after : Analyzer} {delimiterName name : String} {findings : Findings}
  {regexes : NameTable String} {analysis : Analysis} {document : Document}

theorem concludes_of_conclude (concluded : conclude delimiterName findings = .ok analysis) :
    ∃ regexes, Concludes delimiterName findings regexes analysis := by
  rw [conclude] at concluded
  cases named : findings.documentName with
  | none =>
      rw [named] at concluded
      cases concluded
  | some documentName =>
      cases resolved : findings.patterns.resolve with
      | error violation =>
          rw [named, resolved] at concluded
          cases concluded
      | ok regexes =>
          rw [named, resolved] at concluded
          cases concluded
          exact ⟨regexes, named, resolved, rfl, rfl, rfl, rfl, rfl, rfl, rfl⟩

theorem conclude_of_resolve (named : findings.documentName = some name)
    (resolved : findings.patterns.resolve = .ok regexes) :
    ∃ analysis, conclude delimiterName findings = .ok analysis := by
  rw [conclude, named, resolved]
  exact ⟨_, rfl⟩

theorem conclude_of_unresolved {fault : Fault} (named : findings.documentName = some name)
    (failed : findings.patterns.resolve = .error fault) :
    conclude delimiterName findings = .error fault := by
  rw [conclude, named, failed]
  rfl

/-- The expression for the literals takes no name away. -/
theorem Concludes.regexOf?_eq (concludes : Concludes delimiterName findings regexes analysis)
    (known : name ∈ regexes.keys) : analysis.regexOf? name = regexes.get? name := by
  rw [Analysis.regexOf?, concludes.regexes]
  split
  · rename_i adds
    have unknown : delimiterName ∉ regexes.keys := by
      intro known
      rw [addsDelimiter, NameTable.contains_iff.mpr known] at adds
      cases adds
    have other : name ≠ delimiterName := fun same => unknown (same ▸ known)
    rw [NameTable.get?_sorted, NameTable.get?_put, if_neg other]
  · rfl

/-- An analyzer that follows a document to its end draws the analysis from the findings on it. -/
theorem analyze_of_follow
    (followed : (document.walk visit).runOn (analyzer.withFindings {}) = (.ok (), after)) :
    (analyzer.analyze document).1 = conclude analyzer.delimiterName document.findings := by
  have starts : Follow.runOn (modify fun analyzer => { analyzer with findings := {} }) analyzer =
      (.ok (), analyzer.withFindings {}) := rfl
  have found : after = analyzer.withFindings document.findings := by
    rw [Document.walk_eq] at followed
    rw [follow_runOn followed, ← document.foldl_events]
    rfl
  subst found
  rw [analyze, analyzing, Follow.runOn_bind starts, Follow.runOn_bind followed,
    Follow.runOn_get_bind, Follow.runOn_set_bind, withFindings_delimiterName, withFindings_findings]
  cases conclude analyzer.delimiterName document.findings with
  | ok analysis => rfl
  | error fault => rfl

/-- Where there is an analysis, the analyzer has followed the document to its end. -/
theorem follows_of_analyze (analyzed : (analyzer.analyze document).1 = .ok analysis) :
    (document.walk visit).runOn (analyzer.withFindings {}) =
      (.ok (), analyzer.withFindings document.findings) := by
  obtain ⟨after, ran⟩ : ∃ after, (analyzing document).runOn analyzer = (.ok analysis, after) :=
    ⟨(analyzer.analyze document).2, Prod.ext analyzed rfl⟩
  obtain ⟨_, cleared, starts, ran⟩ := Follow.runOn_bind_inv ran
  cases starts
  obtain ⟨_, walked, follows, _⟩ := Follow.runOn_bind_inv ran
  have found : walked = analyzer.withFindings document.findings := by
    rw [Document.walk_eq] at follows
    rw [follow_runOn follows, ← document.foldl_events]
    rfl
  exact found ▸ follows

theorem concludes_of_analyze (analyzed : (analyzer.analyze document).1 = .ok analysis) :
    ∃ regexes, Concludes analyzer.delimiterName document.findings regexes analysis :=
  concludes_of_conclude ((analyze_of_follow (follows_of_analyze analyzed)).symm.trans analyzed)

end Analyzer

theorem concludes_of_analyzeSource {source : String} {analysis : Analysis}
    (analyzed : analyzeSource source = .ok analysis) :
    ∃ document, ({} : Parser).parse source = .ok document ∧ document.validate = .ok () ∧
      ∃ regexes, Analyzer.Concludes Delimiter.defaultName document.findings regexes analysis := by
  rw [analyzeSource] at analyzed
  cases read : ({} : Parser).parse source with
  | error fault =>
      rw [read] at analyzed
      cases analyzed
  | ok document =>
      cases valid : document.validate with
      | error fault =>
          simp only [read, valid, bind, Except.bind] at analyzed
          cases analyzed
      | ok done =>
          simp only [read, valid, bind, Except.bind] at analyzed
          exact ⟨document, rfl, valid, Analyzer.concludes_of_analyze analyzed⟩

theorem resolve_of_analyzeSource {source : String} {analysis : Analysis}
    (analyzed : analyzeSource source = .ok analysis) :
    ∃ document, ({} : Parser).parse source = .ok document ∧ document.validate = .ok () ∧
      ∃ regexes, document.compiled.resolve = .ok regexes ∧
        ∀ name ∈ regexes.keys, analysis.regexOf? name = regexes.get? name := by
  obtain ⟨document, read, valid, regexes, concludes⟩ := concludes_of_analyzeSource analyzed
  exact ⟨document, read, valid, regexes, concludes.resolved, fun _ known => concludes.regexOf?_eq known⟩

end GrammarBook
