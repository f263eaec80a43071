import GrammarBook.Proofs.Analysis.Compiled
import GrammarBook.Proofs.Analysis.Resolution
import GrammarBook.Proofs.Analysis.Trees
import GrammarBook.Proofs.Layout.Validated

namespace GrammarBook

open Regex

/-!
# Regular expressions that mean what their patterns do

The expressions of a document that can be analyzed have one meaning, and what is written for them is
read as trees with that meaning, unless a quantifier tears an element apart. Both are found from the
expressions that refer to no other up to all of them.
-/

/-! ## References -/

theorem targets_append (front back : List Fragment) :
    FragmentTable.targets (front ++ back) =
      FragmentTable.targets front ++ FragmentTable.targets back :=
  List.filterMap_append

theorem targets_text (text : String) (others : List Fragment) :
    FragmentTable.targets (.text text :: others) = FragmentTable.targets others := rfl

/-- Texts alone refer to nothing. -/
theorem targets_map_text {α : Type} (written : α → String) (list : List α) :
    FragmentTable.targets (list.map fun member => .text (written member)) = [] := by
  induction list with
  | nil => rfl
  | cons member list ih => exact ih

theorem targets_glyph (glyph : String) : FragmentTable.targets (glyphFragments glyph) = [] :=
  targets_map_text _ _

theorem targets_intrinsic (name : String) (inFilter : Bool) :
    FragmentTable.targets (intrinsicFragments name inFilter) = [] :=
  targets_map_text _ _

theorem targets_range (bounded : Bounded) :
    FragmentTable.targets bounded.rangeFragments = [] := by
  rw [Bounded.rangeFragments, targets_append, targets_glyph]
  cases bounded.extent with
  | none => rfl
  | some last => exact targets_glyph last

theorem targets_character (character : Character) :
    FragmentTable.targets character.fragments = [] := by
  cases character with
  | bounded range => exact targets_range range
  | intrinsic name => exact targets_intrinsic name true

theorem targets_filter (filter : Filter) : FragmentTable.targets filter.fragments = [] := by
  have members : FragmentTable.targets (filter.characters.flatMap Character.fragments) = [] := by
    induction filter.characters with
    | nil => rfl
    | cons character others ih =>
        rw [List.flatMap_cons, targets_append, targets_character, ih, List.append_nil]
  rw [Filter.fragments, targets_text, targets_append, members]
  rfl

theorem targets_atom (atom : Atom) : FragmentTable.targets atom.fragments = atom.names := by
  cases atom with
  | bounded range =>
      rw [Atom.fragments, Bounded.fragments]
      split
      · rw [targets_text, targets_append, targets_range]
        rfl
      · exact targets_range range
  | intrinsic name => exact targets_intrinsic name false
  | literal text | lowercase name => rfl

mutual

/-- The fragments of a pattern refer to the names in it. -/
theorem targets_pattern : (pattern : Pattern) →
    FragmentTable.targets pattern.fragments = pattern.names
  | .mk first alternatives => by
    rw [Pattern.fragments, targets_append, targets_sequence first,
      targets_alternatives alternatives, Pattern.names]

theorem targets_alternatives : (alternatives : List Sequence) →
    FragmentTable.targets (Sequence.alternativeFragments alternatives) =
      Sequence.listNames alternatives
  | [] => rfl
  | sequence :: others => by
    rw [Sequence.alternativeFragments, targets_text, targets_append, targets_sequence sequence,
      targets_alternatives others, Sequence.listNames]

theorem targets_sequence : (sequence : Sequence) →
    FragmentTable.targets sequence.fragments = sequence.names
  | .mk repetitions => targets_row repetitions

theorem targets_row : (repetitions : List Repetition) →
    FragmentTable.targets (Repetition.rowFragments repetitions) =
      Repetition.listNames repetitions
  | [] => rfl
  | repetition :: others => by
    rw [Repetition.rowFragments, targets_append, targets_repetition repetition,
      targets_row others, Repetition.listNames]

theorem targets_repetition : (repetition : Repetition) →
    FragmentTable.targets repetition.fragments = repetition.names
  | .mk element cardinality => by
    have none : FragmentTable.targets
        (quantifierFragments cardinality element.hasWildcard) = [] := by
      cases cardinality with
      | none => rfl
      | some cardinality => cases element.hasWildcard <;> rfl
    rw [Repetition.fragments, targets_append, targets_element element, none, List.append_nil,
      Repetition.names]

theorem targets_element : (element : Element) →
    FragmentTable.targets element.fragments = element.names
  | .group pattern => by
    rw [Element.fragments, targets_text, targets_append, targets_pattern pattern, targets_text,
      Element.names]
    exact List.append_nil _
  | .filter filter => targets_filter filter
  | .atom atom => targets_atom atom

end

theorem targets_expression (expression : Expression) :
    FragmentTable.targets expression.fragments = expression.pattern.names := by
  rw [Expression.fragments, targets_text, targets_append, targets_pattern, targets_text]
  exact List.append_nil _

/-! ## Documents -/

namespace Document

variable {document : Document}

/-- In the table of a document an expression refers to the names in its pattern. -/
theorem refers_iff (distinct : (document.expressions.map (·.name)).Nodup) {expression : Expression}
    (member : expression ∈ document.expressions) {target : String} :
    document.compiled.Refers expression.name target ↔ target ∈ expression.pattern.names := by
  rw [FragmentTable.Refers, get?_compiled distinct member, Option.getD_some, targets_expression]

theorem exists_referred (distinct : (document.expressions.map (·.name)).Nodup)
    (defined : document.compiled.IsDefined) {expression : Expression}
    (member : expression ∈ document.expressions) {target : String}
    (refers : target ∈ expression.pattern.names) :
    ∃ other ∈ document.expressions, other.name = target := by
  have isKey := defined ((refers_iff distinct member).mpr refers)
  exact List.mem_map.mp (mem_keys_compiled.mp isKey)

/-- A name is found at the expression that has it. -/
theorem find?_name (distinct : (document.expressions.map (·.name)).Nodup) {expression : Expression}
    (member : expression ∈ document.expressions) :
    document.expressions.find? (·.name == expression.name) = some expression := by
  cases found : document.expressions.find? (·.name == expression.name) with
  | none =>
      have other := List.find?_eq_none.mp found expression member
      exact absurd (beq_self_eq_true _) other
  | some other =>
      have same : other.name = expression.name := by simpa using List.find?_some found
      have known := List.mem_of_find?_eq_some found
      rw [List.inj_on_of_nodup_map distinct known member same]

/-- Every expression has the value that its pattern has, given the values of the names in it. -/
def Solves {α : Type} (document : Document) (value : Pattern → (String → α) → α)
    (solution : String → α) : Prop :=
  ∀ expression ∈ document.expressions,
    solution expression.name = value expression.pattern solution

/-- The value of a pattern depends on the values of the names in it only. -/
def DependsOnNames {α : Type} (value : Pattern → (String → α) → α) : Prop :=
  ∀ (pattern : Pattern) (left right : String → α),
    (∀ name ∈ pattern.names, left name = right name) → value pattern left = value pattern right

section Solutions

variable {α : Type} {value : Pattern → (String → α) → α}

open Classical in
/-- The value of the expression under a name, given the values of what the name refers to. -/
noncomputable def valueOver (document : Document) (missing : α) (value : Pattern → (String → α) → α)
    (name : String) (below : (target : String) → document.compiled.Refers name target → α) : α :=
  (document.expressions.find? (·.name == name)).elim missing fun expression =>
    value expression.pattern fun target =>
      if refers : document.compiled.Refers name target then below target refers else missing

/-- Expressions that do not go around in circles have values. -/
theorem exists_solves (distinct : (document.expressions.map (·.name)).Nodup)
    (defined : document.compiled.IsDefined) (acyclic : document.compiled.IsAcyclic) (missing : α)
    (depends : DependsOnNames value) : ∃ solution, document.Solves value solution := by
  have down := FragmentTable.wellFounded_refers defined acyclic
  refine ⟨down.fix (document.valueOver missing value), fun expression member => ?_⟩
  rw [down.fix_eq, valueOver, find?_name distinct member, Option.elim_some]
  apply depends
  intro target inPattern
  rw [dif_pos ((refers_iff distinct member).mpr inPattern)]

/-- Their values are the only ones. -/
theorem Solves.unique (distinct : (document.expressions.map (·.name)).Nodup)
    (defined : document.compiled.IsDefined) (acyclic : document.compiled.IsAcyclic)
    (depends : DependsOnNames value) {solution other : String → α}
    (solves : document.Solves value solution) (alsoSolves : document.Solves value other) :
    ∀ expression ∈ document.expressions, solution expression.name = other expression.name := by
  intro expression member
  induction named : expression.name using
    (FragmentTable.wellFounded_refers defined acyclic).induction generalizing expression with
  | _ name ih =>
      subst named
      rw [solves expression member, alsoSolves expression member]
      apply depends
      intro target refers
      obtain ⟨referred, known, rfl⟩ := exists_referred distinct defined member refers
      exact ih referred.name ((refers_iff distinct member).mpr refers) referred known rfl

end Solutions

theorem dependsOnNames_language (alphabet : Alphabet) :
    DependsOnNames fun pattern meaning => pattern.language alphabet meaning :=
  fun pattern _ _ same => pattern.language_congr same

/-- Expressions that do not go around in circles have a meaning. -/
theorem exists_meaning (distinct : (document.expressions.map (·.name)).Nodup)
    (defined : document.compiled.IsDefined) (acyclic : document.compiled.IsAcyclic)
    (alphabet : Alphabet) : ∃ meaning, document.IsMeaning alphabet meaning :=
  exists_solves distinct defined acyclic 0 (dependsOnNames_language alphabet)

/-- There is one meaning only. -/
theorem IsMeaning.unique (distinct : (document.expressions.map (·.name)).Nodup)
    (defined : document.compiled.IsDefined) (acyclic : document.compiled.IsAcyclic)
    {alphabet : Alphabet} {meaning other : String → Language Char}
    (means : document.IsMeaning alphabet meaning) (alsoMeans : document.IsMeaning alphabet other) :
    ∀ expression ∈ document.expressions, meaning expression.name = other expression.name :=
  Solves.unique distinct defined acyclic (dependsOnNames_language alphabet) means alsoMeans

/-- What is right in a document is right in its expressions. -/
theorem IsValid.soundPattern (valid : document.IsValid) {expression : Expression}
    (member : expression ∈ document.expressions) :
    ∀ part ∈ expression.pattern.parts, part.IsSound := by
  intro part inPattern
  have inExpression : part ∈ expression.parts :=
    List.mem_cons_of_mem _ (List.mem_append_left _ inPattern)
  have inExpressions := List.mem_flatMap.mpr ⟨expression, member, inExpression⟩
  apply valid.sound
  exact List.mem_cons_of_mem _ (List.mem_cons_of_mem _
    (List.mem_append_right _ (List.mem_cons_of_mem _ inExpressions)))

/-- The tree has the meaning of the expression if nothing is torn in what this is made of, and has
another one if the expression is a torn repetition alone. -/
structure Renders (document : Document) (alphabet : Alphabet) (meaning : String → Language Char)
    (expression : Expression) (tree : Expr) : Prop where
  whole : document.IsWhole expression → tree.language alphabet = meaning expression.name
  torn : ∀ repetition, expression.pattern = .mk (.mk [repetition]) [] → repetition.IsTorn →
    tree.language alphabet ≠ meaning expression.name

variable {alphabet : Alphabet} {meaning : String → Language Char} {expression : Expression}

/-- What is written for an expression is read as one piece which renders it, if what is written for
the names in it is read as pieces that have the meanings of these. -/
theorem exists_tree_of_names (valid : document.IsValid)
    (means : document.IsMeaning alphabet meaning) (defined : document.compiled.IsDefined)
    (acyclic : document.compiled.IsAcyclic) (member : expression ∈ document.expressions)
    (filled : expression.pattern.isFilled = true)
    (below : ∀ target ∈ expression.pattern.names, ∃ tree,
      ReadsPlainly (document.compiled.textOf target).toList [tree] ∧
        (document.IsWhole expression → tree.language alphabet = meaning target)) :
    ∃ tree, ReadsPlainly (document.compiled.textOf expression.name).toList [tree] ∧
      document.Renders alphabet meaning expression tree := by
  have : Nonempty Expr := ⟨.empty⟩
  choose! treeOf reads same using below
  have sound := valid.soundPattern member
  refine ⟨expression.pattern.tree treeOf, ?_, ?_, ?_⟩
  · rw [FragmentTable.textOf_eq defined acyclic (get?_compiled valid.distinctExpressions member)]
    exact readsPlainly_grouped (completes_pattern expression.pattern sound filled reads)
  · intro whole
    rw [means expression member]
    exact language_tree expression.pattern sound
      (fun repetition inside => whole repetition (.own inside))
      (fun target refers => same target refers whole)
  · intro repetition alone torn
    rw [means expression member]
    exact language_tree_ne sound alone torn

/-- What is written for an expression is read as one piece, which renders the expression. -/
theorem exists_tree (valid : document.IsValid) (means : document.IsMeaning alphabet meaning)
    (defined : document.compiled.IsDefined) (acyclic : document.compiled.IsAcyclic)
    (filled : ∀ expression ∈ document.expressions, expression.pattern.isFilled = true)
    (member : expression ∈ document.expressions) :
    ∃ tree, ReadsPlainly (document.compiled.textOf expression.name).toList [tree] ∧
      document.Renders alphabet meaning expression tree := by
  have distinct := valid.distinctExpressions
  induction named : expression.name using
    (FragmentTable.wellFounded_refers defined acyclic).induction generalizing expression with
  | _ name ih =>
      subst named
      refine exists_tree_of_names valid means defined acyclic member (filled _ member) ?_
      intro target refers
      obtain ⟨other, known, rfl⟩ := exists_referred distinct defined member refers
      obtain ⟨tree, reads, renders⟩ :=
        ih other.name ((refers_iff distinct member).mpr refers) known rfl
      exact ⟨tree, reads, fun whole => renders.whole (whole.referred refers known)⟩

theorem Renders.row {tree : Expr} (renders : document.Renders alphabet meaning expression tree) :
    document.Renders alphabet meaning expression (.row [tree]) where
  whole whole := (language_row_one alphabet tree).trans (renders.whole whole)
  torn repetition alone torn := by
    rw [language_row_one]
    exact renders.torn repetition alone torn

end Document

/-! ## Analyses -/

theorem analyzeSource_of_parse {source : String} {document : Document}
    (read : ({} : Parser).parse source = .ok document) (valid : document.validate = .ok ()) :
    analyzeSource source = (({} : Analyzer).analyze document).1 := by
  simp only [analyzeSource, read, valid, bind, Except.bind]

/-- The patterns of a source that can be analyzed have one meaning, and the regular expression of each
expression renders it. -/
theorem regexes_render_patterns {source : String} {analysis : Analysis}
    (analyzed : analyzeSource source = .ok analysis) (alphabet : Alphabet) :
    ∃ document meaning, ({} : Parser).parse source = .ok document ∧
      document.IsMeaning alphabet meaning ∧
      (∀ other, document.IsMeaning alphabet other →
        ∀ expression ∈ document.expressions, other expression.name = meaning expression.name) ∧
      ∀ expression ∈ document.expressions, ∃ regex tree,
        analysis.regexOf? expression.name = some regex ∧ read? regex = some tree ∧
          document.Renders alphabet meaning expression tree := by
  obtain ⟨document, read, accepted, regexes, resolved, kept⟩ := resolve_of_analyzeSource analyzed
  have valid := Document.isValid_of_validate accepted
  have distinct := valid.distinctExpressions
  obtain ⟨defined, acyclic, keys, texts⟩ := FragmentTable.resolved_of_resolve resolved
  obtain ⟨meaning, means⟩ := document.exists_meaning distinct defined acyclic alphabet
  refine ⟨document, meaning, read, means, ?_, ?_⟩
  · exact fun other alsoMeans => alsoMeans.unique distinct defined acyclic means
  · intro expression member
    have source := Parser.hasSource_of_parse _ read
    have filled : ∀ expression ∈ document.expressions, expression.pattern.isFilled = true :=
      fun expression member =>
        (Grammar.isWritable_expression_iff.mp (source.expressions expression member)).1
    obtain ⟨tree, reads, renders⟩ :=
      Document.exists_tree valid means defined acyclic filled member
    have isKey : expression.name ∈ document.compiled.keys :=
      Document.mem_keys_compiled.mpr (List.mem_map_of_mem member)
    refine ⟨_, _, ?_, read?_of_reads reads.reads, renders.row⟩
    rw [kept expression.name (keys ▸ isKey), texts expression.name isKey]

/-- An expression that refers to another one has the regular expression of that one in its own. -/
theorem smallSource_rendered :
    ∃ analysis, analyzeSource smallSource = .ok analysis ∧
      analysis.regexOf? "b" = some "(?:(?:x))" ∧
      ∀ alphabet, ∃ tree, read? "(?:(?:x))" = some tree ∧ tree.language alphabet = {['x']} := by
  obtain ⟨analysis, analyzed, regexOf⟩ : ∃ analysis, analyzeSource smallSource = .ok analysis ∧
      analysis.regexOf? "b" = some "(?:(?:x))" := by
    rw [analyzeSource_of_parse (parse_smallSource {}) rfl]
    exact ⟨_, rfl, rfl⟩
  refine ⟨analysis, analyzed, regexOf, fun alphabet => ?_⟩
  obtain ⟨document, meaning, read, means, _, renders⟩ := regexes_render_patterns analyzed alphabet
  obtain rfl : Reading.smallDocument = document :=
    Except.ok.inj ((parse_smallSource {}).symm.trans read)
  have isFirst : Reading.atomExpression "a" (.literal "\"x\"") ∈ Reading.smallDocument.expressions :=
    List.mem_cons_self
  have isSecond : Reading.atomExpression "b" (.lowercase "a") ∈ Reading.smallDocument.expressions :=
    List.mem_cons_of_mem _ List.mem_cons_self
  obtain ⟨regex, tree, regexOf', reads, renders⟩ := renders _ isSecond
  obtain rfl := Option.some.inj (regexOf.symm.trans regexOf')
  refine ⟨tree, reads, (renders.whole fun repetition isPart torn => ?_).trans ?_⟩
  · obtain ⟨expression, member, contains⟩ := isPart.exists_contained isSecond
    obtain ⟨name, atom, rfl⟩ : ∃ name atom, expression = Reading.atomExpression name atom := by
      rcases List.mem_pair.mp member with rfl | rfl <;> exact ⟨_, _, rfl⟩
    obtain rfl : repetition = .mk (.atom atom) none := List.mem_singleton.mp contains
    obtain ⟨_, given, isGiven, _⟩ := torn
    cases isGiven
  · rw [means _ isSecond]
    change meaning "a" * 1 + 0 = _
    rw [mul_one, add_zero]
    refine (means _ isFirst).trans ?_
    change ({['x']} : Language Char) * 1 + 0 = _
    rw [mul_one, add_zero]

/-- A source with a literal of two characters that may be repeated. -/
def tornSource : String := "!>\nn\n<!\n!>\nl\n<!\nR:\n- a\n!>\n<!\na: \"ab\"*\n"

def tornDocument : Document :=
  { Reading.smallDocument with
    expressions :=
      [⟨"a", .mk (.mk [.mk (.atom (.literal "\"ab\"")) (some (.quantified "*"))]) [], none⟩] }

theorem parse_tornSource : ({} : Parser).parse tornSource = .ok tornDocument := by
  have scanned : Token.scan tornSource = Reading.smallDerivation.tokens.take 12 ++
      [⟨.lowercase, "a", ⟨11, 1⟩⟩, ⟨.delimiter, ":", ⟨11, 2⟩⟩, ⟨.literal, "\"ab\"", ⟨11, 4⟩⟩,
        ⟨.quantified, "*", ⟨11, 8⟩⟩, ⟨.newline, "\n", ⟨11, 9⟩⟩, ⟨.eof, "", ⟨12, 1⟩⟩] := by
    decide +kernel
  have ascending : Reading.IsAscending tornDocument.expressions := List.pairwise_singleton _ _
  exact Parser.parse_of_read {} ⟨[], []⟩ scanned ascending rfl

theorem isMeaning_tornDocument_iff {alphabet : Alphabet} {meaning : String → Language Char} :
    tornDocument.IsMeaning alphabet meaning ↔
      meaning "a" = repetition ⟨0, none⟩ ({['a', 'b']} : Language Char) := by
  have denoted : (Pattern.mk (.mk [.mk (.atom (.literal "\"ab\"")) (some (.quantified "*"))])
      []).language alphabet meaning = repetition ⟨0, none⟩ ({['a', 'b']} : Language Char) := by
    change repetition ⟨0, none⟩ ({['a', 'b']} : Language Char) * 1 + 0 = _
    rw [mul_one, add_zero]
  rw [← denoted]
  exact List.forall_mem_singleton

/-- The quantifier binds to the second character alone. -/
theorem tornSource_not_rendered :
    ∃ analysis tree, analyzeSource tornSource = .ok analysis ∧
      ({} : Parser).parse tornSource = .ok tornDocument ∧
      analysis.regexOf? "a" = some "(?:ab*)" ∧ read? "(?:ab*)" = some tree ∧
      ∀ alphabet, (∃ meaning, tornDocument.IsMeaning alphabet meaning) ∧
        ∀ meaning, tornDocument.IsMeaning alphabet meaning →
          ['a', 'b', 'b'] ∈ tree.language alphabet ∧ ['a', 'b', 'b'] ∉ meaning "a" := by
  have analyzed : ∃ analysis, analyzeSource tornSource = .ok analysis ∧
      analysis.regexOf? "a" = some "(?:ab*)" := by
    rw [analyzeSource_of_parse parse_tornSource rfl]
    exact ⟨_, rfl, rfl⟩
  obtain ⟨analysis, analyzed, regexOf⟩ := analyzed
  have reads : read? "(?:ab*)" =
      some (.row [.row (quantifyLast ⟨0, none⟩ (spelledOut (['a'] ++ ['b'])))]) := rfl
  refine ⟨analysis, _, analyzed, parse_tornSource, regexOf, reads, fun alphabet => ⟨?_, ?_⟩⟩
  · exact ⟨fun _ => _, isMeaning_tornDocument_iff.mpr rfl⟩
  · intro meaning means
    rw [isMeaning_tornDocument_iff.mp means]
    constructor
    · rw [language_row_one, mem_quantifyLast_spelledOut]
      exact ⟨2, ⟨Nat.zero_le 2, nofun⟩, rfl⟩
    · intro repeats
      obtain ⟨count, _, words⟩ := mem_repetition_singleton.mp repeats
      have lengths : 3 = count * 2 := by simpa using congrArg List.length words
      omega

end GrammarBook
