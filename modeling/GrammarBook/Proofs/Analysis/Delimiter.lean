import GrammarBook.Proofs.Analysis.Closure
import GrammarBook.Proofs.Analysis.Faithful

namespace GrammarBook

open Regex

/-!
# The delimiter takes the longest literal

The regular expression that stands for the literals of the rules is a choice between these, as they
are. Of the alternatives the first one that a word begins with is the longest literal that it begins
with, since a literal comes before all that are shorter.
-/

/-! ## The order of literals -/

namespace Delimiter

/-- The one text comes before the other: it is longer, or less than the other of the same length. -/
def Precedes (left right : String) : Prop :=
  right.length < left.length ∨ right.length = left.length ∧ left < right

theorem Precedes.ne {left right : String} (precedes : Precedes left right) : left ≠ right := by
  rintro rfl
  rcases precedes with shorter | ⟨_, less⟩
  · exact Nat.lt_irrefl _ shorter
  · exact String.lt_irrefl _ less

theorem mem_longestFirst {literals : NameSet} {text : String} :
    text ∈ longestFirst literals ↔ text ∈ literals.toList :=
  (List.mergeSort_perm ..).mem_iff

theorem longestFirst_ne_nil {literals : NameSet} (filled : literals.isEmpty = false) :
    longestFirst literals ≠ [] := by
  rcases NameSet.isEmpty_eq_false_iff.mp filled with ⟨text, member⟩
  exact List.ne_nil_of_mem (mem_longestFirst.mpr member)

theorem pairwise_longestFirst (literals : NameSet) : (longestFirst literals).Pairwise Precedes := by
  have trans (first second third : String) :
      decide (second.length ≤ first.length) = true → decide (third.length ≤ second.length) = true →
        decide (third.length ≤ first.length) = true := by
    simp only [decide_eq_true_eq]
    exact fun shorter shortest => shortest.trans shorter
  have total (first second : String) :
      (decide (second.length ≤ first.length) || decide (first.length ≤ second.length)) = true := by
    simp only [Bool.or_eq_true, decide_eq_true_eq]
    exact Nat.le_total ..
  rw [List.pairwise_iff_forall_sublist]
  intro left right ordered
  have notLonger : right.length ≤ left.length := of_decide_eq_true
    (List.pairwise_iff_forall_sublist.mp (List.pairwise_mergeSort trans total _) ordered)
  rcases Nat.lt_or_eq_of_le notLonger with shorter | same
  · exact .inl shorter
  · -- Sorting by length leaves the texts of one length in the order in which the set has them.
    let ofLength (text : String) : Bool := text.length = left.length
    have stable : (literals.toList.filter ofLength).Sublist (longestFirst literals) := by
      refine List.sublist_mergeSort trans total ?_ List.filter_sublist
      refine List.pairwise_of_forall_mem_list fun first isFirst second isSecond => ?_
      have firstLength := of_decide_eq_true (List.mem_filter.mp isFirst).2
      have secondLength := of_decide_eq_true (List.mem_filter.mp isSecond).2
      exact decide_eq_true (Nat.le_of_eq (secondLength.trans firstLength.symm))
    have kept := stable.filter ofLength
    simp only [List.filter_filter, Bool.and_self] at kept
    have equal : literals.toList.filter ofLength = (longestFirst literals).filter ofLength :=
      kept.eq_of_length ((List.mergeSort_perm ..).filter ofLength).length_eq.symm
    have among : [left, right].Sublist ((longestFirst literals).filter ofLength) := by
      simpa [ofLength, same] using ordered.filter ofLength
    rw [← equal] at among
    exact .inr ⟨same, List.pairwise_iff_forall_sublist.mp literals.ascending
      (among.trans List.filter_sublist)⟩

theorem nodup_longestFirst (literals : NameSet) : (longestFirst literals).Nodup :=
  (pairwise_longestFirst literals).imp Precedes.ne

/-- The text is the longest of the texts with which the word begins. -/
structure IsLongest (among : String → Prop) (word text : String) : Prop where
  isAmong : among text
  begins : text.toList <+: word.toList
  longest : ∀ other, among other → other.toList <+: word.toList → other.length ≤ text.length

theorem IsLongest.unique {among : String → Prop} {word text other : String}
    (isLongest : IsLongest among word text) (alsoLongest : IsLongest among word other) :
    text = other := by
  have notLonger := isLongest.longest other alsoLongest.isAmong alsoLongest.begins
  have notShorter := alsoLongest.longest text isLongest.isAmong isLongest.begins
  rw [← String.length_toList, ← String.length_toList] at notLonger notShorter
  have begins := List.prefix_of_prefix_length_le isLongest.begins alsoLongest.begins notShorter
  exact String.toList_inj.mp (begins.eq_of_length (Nat.le_antisymm notShorter notLonger))

/-- Where longer texts come first, the first one that begins a word is the longest that does. -/
theorem find?_eq_some_iff {texts : List String} (ordered : texts.Pairwise Precedes)
    {word text : String} :
    texts.find? (fun text => text.toList.isPrefixOf word.toList) = some text ↔
      IsLongest (· ∈ texts) word text := by
  have isLongest_of_found {text : String}
      (found : texts.find? (fun text => text.toList.isPrefixOf word.toList) = some text) :
      IsLongest (· ∈ texts) word text := by
    rcases List.find?_eq_some_iff_append.mp found with ⟨begins, before, behind, rfl, none⟩
    refine ⟨List.mem_append_right _ List.mem_cons_self, List.isPrefixOf_iff_prefix.mp begins, ?_⟩
    intro other member alsoBegins
    rcases List.mem_append.mp member with earlier | late
    · have refused := none other earlier
      rw [List.isPrefixOf_iff_prefix.mpr alsoBegins] at refused
      cases refused
    · rcases List.mem_cons.mp late with rfl | later
      · exact Nat.le_refl _
      · rcases List.rel_of_pairwise_cons (List.pairwise_append.mp ordered).2.1 later with
          shorter | ⟨same, _⟩
        · exact Nat.le_of_lt shorter
        · exact Nat.le_of_eq same
  refine ⟨isLongest_of_found, fun isLongest => ?_⟩
  cases found : texts.find? (fun text => text.toList.isPrefixOf word.toList) with
  | none =>
      have refused := List.find?_eq_none.mp found text isLongest.isAmong
      exact absurd (List.isPrefixOf_iff_prefix.mpr isLongest.begins) refused
  | some other => rw [(isLongest_of_found found).unique isLongest]

end Delimiter

/-! ## Alternatives -/

namespace Regex

/-- What a regular expression tries one after the other. -/
def Expr.choices : Expr → List Expr
  | choice left right => left.choices ++ right.choices
  | expr => [expr]

theorem choices_row (pieces : List Expr) : (Expr.row pieces).choices = [.row pieces] := by
  cases pieces with
  | nil => rfl
  | cons piece pieces => rfl

/-- Texts that stand for themselves, each behind a bar. -/
def barred (texts : List String) : List Char :=
  texts.flatMap fun text => '|' :: text.toList.flatMap escapeChar

/-- The choice between what comes first and texts that stand for themselves. -/
def spelledChoice (first : Expr) (texts : List String) : Expr :=
  texts.foldl (fun tree text => .choice tree (.row (spelledOut text.toList))) first

theorem choices_spelledChoice (first : Expr) (texts : List String) :
    (spelledChoice first texts).choices =
      first.choices ++ texts.map fun text => .row (spelledOut text.toList) := by
  induction texts generalizing first with
  | nil => exact (List.append_nil _).symm
  | cons text texts ih =>
      rw [spelledChoice, List.foldl_cons, ← spelledChoice, ih, Expr.choices, choices_row,
        List.append_assoc]
      rfl

theorem Completes.barred {text : List Char} {tree : Expr} (before : Completes none text tree)
    (texts : List String) :
    Completes none (text ++ barred texts) (spelledChoice tree texts) := by
  induction texts generalizing text tree with
  | nil =>
      rw [Regex.barred, List.flatMap_nil, List.append_nil]
      exact before
  | cons next texts ih =>
      have joined := before.bar ((reads_escape next.toList).unmarked.completes (some tree))
      have whole := ih joined
      rw [List.append_assoc] at whole
      exact whole

theorem toList_escape (text : String) : (escape text).toList = text.toList.flatMap escapeChar := by
  rw [escape, String.toList_ofList]

theorem toList_intercalate_escape (first : String) (texts : List String) :
    ("|".intercalate ((first :: texts).map escape)).toList =
      first.toList.flatMap escapeChar ++ barred texts := by
  rw [String.toList_intercalate]
  induction texts generalizing first with
  | nil => simp [barred, toList_escape]
  | cons next texts ih =>
      simp only [List.map_cons] at ih ⊢
      rw [List.intercalate_cons_cons, ih, toList_escape, List.append_assoc]
      rfl

/-- A choice between texts that stand for themselves is read as that. -/
theorem exists_tree_of_escape {texts : List String} (nonempty : texts ≠ []) :
    ∃ tree, read? (groupStart ++ "|".intercalate (texts.map escape) ++ ")") = some (.row [tree]) ∧
      tree.choices = texts.map fun text => .row (spelledOut text.toList) := by
  rcases List.exists_cons_of_ne_nil nonempty with ⟨first, others, rfl⟩
  refine ⟨spelledChoice (.row (spelledOut first.toList)) others, read?_of_reads ?_, ?_⟩
  · have reads := reads_grouped
      (((reads_escape first.toList).unmarked.completes none).barred others)
    rw [grouped, ← toList_intercalate_escape] at reads
    rw [String.toList_append, String.toList_append]
    exact reads
  · rw [choices_spelledChoice, choices_row]
    rfl

end Regex

/-! ## Literals of rules -/

/-- The text is that of a literal in a rule of the document, in brackets or not. -/
def Document.UsesLiteral (document : Document) (text : String) : Prop :=
  ∃ rule ∈ document.rules, ∃ literal, .leaf .literal literal ∈ rule.parts ∧
    Token.literalText literal = text

theorem Document.usesLiteral_iff {document : Document} {text : String} :
    document.UsesLiteral text ↔ text ∈ document.findings.literals.toList := by
  rw [mem_literals_iff, List.mem_flatMap]
  exact exists_congr fun rule => and_congr_right fun _ => Rule.mem_literals_iff.symm

theorem Document.mem_longestFirst_iff {document : Document} {text : String} :
    text ∈ Delimiter.longestFirst document.findings.literals ↔ document.UsesLiteral text :=
  Delimiter.mem_longestFirst.trans usesLiteral_iff.symm

/-- No literal of a valid document is empty. -/
theorem Document.IsValid.not_usesLiteral_empty {document : Document} (valid : document.IsValid) :
    ¬ document.UsesLiteral "" := by
  rintro ⟨rule, isRule, literal, isPart, isEmpty⟩
  have accepted : (Part.leaf .literal literal).IsSound :=
    valid.sound _ (parts_of_mem_rules isRule isPart)
  apply literalText_ne_nil accepted
  rw [isEmpty]
  rfl

namespace Analyzer

variable {delimiterName regex : String} {document : Document} {findings : Findings}
  {regexes : NameTable String} {analysis : Analysis}

theorem delimiterName_not_mem_keys (valid : document.IsValid)
    (concludes : Concludes delimiterName document.findings regexes analysis)
    (synthesized : ∀ expression ∈ document.expressions, expression.name ≠ delimiterName) :
    delimiterName ∉ regexes.keys := by
  rw [keys_of_concludes valid concludes]
  intro known
  rcases List.mem_map.mp known with ⟨expression, member, named⟩
  exact synthesized expression member named

/-- Where no expression has the name for the literals, what is found under it is made of them. -/
theorem Concludes.regexOf?_delimiter_iff
    (concludes : Concludes delimiterName findings regexes analysis)
    (unknown : delimiterName ∉ regexes.keys) :
    analysis.regexOf? delimiterName = some regex ↔
      findings.literals.isEmpty = false ∧ regex = Delimiter.regex findings.literals := by
  have isNew : regexes.contains delimiterName = false :=
    Bool.eq_false_iff.mpr fun known => unknown (NameTable.contains_iff.mp known)
  have absent : regexes.get? delimiterName ≠ some regex := fun found =>
    unknown (NameTable.mem_keys_iff.mpr ⟨regex, found⟩)
  rw [Analysis.regexOf?, concludes.regexes, addsDelimiter, isNew]
  cases findings.literals.isEmpty with
  | true => exact iff_of_false absent fun filled => Bool.noConfusion filled.1
  | false =>
      change (regexes.put delimiterName (Delimiter.regex findings.literals)).sorted.get?
        delimiterName = some regex ↔ _
      rw [NameTable.get?_sorted, NameTable.get?_put, if_pos rfl, Option.some_inj]
      exact (eq_comm.trans (and_iff_right rfl).symm)

end Analyzer

/-- The regular expression that is made for the literals of the rules has one alternative for each of
them, which spells it out, and no others. None is empty. They stand in such an order that the first
one that begins a word is the longest literal that does. -/
theorem delimiter_matches_longest_literal {source regex : String} {document : Document}
    {analysis : Analysis} (read : ({} : Parser).parse source = .ok document)
    (analyzed : analyzeSource source = .ok analysis)
    (synthesized : ∀ expression ∈ document.expressions, expression.name ≠ Delimiter.defaultName)
    (found : analysis.regexOf? Delimiter.defaultName = some regex) :
    ∃ alternatives : List String,
      regex = groupStart ++ "|".intercalate (alternatives.map escape) ++ ")" ∧
      (∃ tree, read? regex = some (.row [tree]) ∧
        tree.choices = alternatives.map fun text => .row (spelledOut text.toList)) ∧
      alternatives.Nodup ∧ (∀ text, text ∈ alternatives ↔ document.UsesLiteral text) ∧
      "" ∉ alternatives ∧ alternatives.Pairwise Delimiter.Precedes ∧
      ∀ word text : String,
        alternatives.find? (fun alternative => alternative.toList.isPrefixOf word.toList) = some text ↔
          Delimiter.IsLongest document.UsesLiteral word text := by
  rcases concludes_of_analyzeSource analyzed with ⟨_, alsoRead, accepted, regexes, concludes⟩
  cases read.symm.trans alsoRead
  have valid := Document.isValid_of_validate accepted
  have unknown := Analyzer.delimiterName_not_mem_keys valid concludes synthesized
  rcases (concludes.regexOf?_delimiter_iff unknown).mp found with ⟨filled, rfl⟩
  have ordered := Delimiter.pairwise_longestFirst document.findings.literals
  refine ⟨Delimiter.longestFirst document.findings.literals, rfl,
    exists_tree_of_escape (Delimiter.longestFirst_ne_nil filled), Delimiter.nodup_longestFirst _,
    fun _ => Document.mem_longestFirst_iff, ?_, ordered, ?_⟩
  · rw [Document.mem_longestFirst_iff]
    exact valid.not_usesLiteral_empty
  · intro word text
    have same : (· ∈ Delimiter.longestFirst document.findings.literals) = document.UsesLiteral :=
      funext fun _ => propext Document.mem_longestFirst_iff
    rw [Delimiter.find?_eq_some_iff ordered, same]

/-- A source with a literal in a rule and a longer one, which it begins, in brackets behind it. -/
def dottedSource : String :=
  "!>\nn\n<!\n!>\nl\n<!\nR: \".\" (a \"..\")*\n!>\n<!\na: \"x\"\n"

def dottedDocument : Document :=
  { notice := "!>\nn\n<!"
    leading := "!>\nl\n<!"
    rules :=
      [⟨"R", .inlined
        [.literal "\".\"", .bracket [.reference ⟨.lower "a", none⟩, .literal "\"..\""]
          (some (.quantified "*"))] none⟩]
    trailing := "!>\n<!"
    expressions := [Reading.atomExpression "a" (.literal "\"x\"")] }

theorem parse_dottedSource : ({} : Parser).parse dottedSource = .ok dottedDocument := by
  have scanned : Token.scan dottedSource =
      [⟨.comment, "!>\nn\n<!", ⟨1, 1⟩⟩, ⟨.newline, "\n", ⟨3, 3⟩⟩,
        ⟨.comment, "!>\nl\n<!", ⟨4, 1⟩⟩, ⟨.newline, "\n", ⟨6, 3⟩⟩,
        ⟨.uppercase, "R", ⟨7, 1⟩⟩, ⟨.delimiter, ":", ⟨7, 2⟩⟩, ⟨.literal, "\".\"", ⟨7, 4⟩⟩,
        ⟨.delimiter, "(", ⟨7, 8⟩⟩, ⟨.lowercase, "a", ⟨7, 9⟩⟩, ⟨.literal, "\"..\"", ⟨7, 11⟩⟩,
        ⟨.delimiter, ")", ⟨7, 15⟩⟩, ⟨.quantified, "*", ⟨7, 16⟩⟩, ⟨.newline, "\n", ⟨7, 17⟩⟩,
        ⟨.comment, "!>\n<!", ⟨8, 1⟩⟩, ⟨.newline, "\n", ⟨9, 3⟩⟩,
        ⟨.lowercase, "a", ⟨10, 1⟩⟩, ⟨.delimiter, ":", ⟨10, 2⟩⟩, ⟨.literal, "\"x\"", ⟨10, 4⟩⟩,
        ⟨.newline, "\n", ⟨10, 7⟩⟩, ⟨.eof, "", ⟨11, 1⟩⟩] := by
    decide +kernel
  have ascending : Reading.IsAscending dottedDocument.expressions := List.pairwise_singleton _ _
  exact Parser.parse_of_read {} ⟨[], []⟩ scanned ascending rfl

theorem analyze_dottedSource : ∃ analysis,
    analyzeSource dottedSource = .ok analysis ∧
      analysis.regexOf? Delimiter.defaultName =
        some (Delimiter.regex dottedDocument.findings.literals) ∧
      analysis.regexOf? "a" = some "(?:x)" := by
  have succeeds : ∃ analysis, (({} : Analyzer).analyze dottedDocument).1 = .ok analysis := ⟨_, rfl⟩
  rcases succeeds with ⟨analysis, analyzed⟩
  have accepted : dottedDocument.validate = .ok () := rfl
  rcases Analyzer.concludes_of_analyze analyzed with ⟨regexes, concludes⟩
  have unknown := Analyzer.delimiterName_not_mem_keys (Document.isValid_of_validate accepted)
    concludes (by decide)
  have resolves : ∃ table,
      dottedDocument.findings.patterns.resolve = .ok table ∧ table.get? "a" = some "(?:x)" :=
    ⟨_, rfl, rfl⟩
  rcases resolves with ⟨table, resolved, entered⟩
  rcases Except.ok.inj (resolved.symm.trans concludes.resolved) with rfl
  have known := NameTable.mem_keys_iff.mpr ⟨_, entered⟩
  exact ⟨analysis, (analyzeSource_of_parse parse_dottedSource accepted).trans analyzed,
    (concludes.regexOf?_delimiter_iff unknown).mpr ⟨rfl, rfl⟩,
    (concludes.regexOf?_eq known).trans entered⟩

theorem dottedDocument_usesLiterals :
    dottedDocument.UsesLiteral "." ∧ dottedDocument.UsesLiteral ".." := by
  refine ⟨⟨_, List.mem_singleton_self _, "\".\"", ?_, rfl⟩,
    ⟨_, List.mem_singleton_self _, "\"..\"", ?_, rfl⟩⟩
  · simp [Rule.parts, Definition.parts, Term.listParts, Term.parts]
  · simp [Rule.parts, Definition.parts, Term.listParts, Term.parts]

/-- Three dots begin with both literals, and the longer one is tried first. -/
theorem dottedSource_matches_longest :
    ({} : Parser).parse dottedSource = .ok dottedDocument ∧
      (∀ expression ∈ dottedDocument.expressions, expression.name ≠ Delimiter.defaultName) ∧
      ∃ (analysis : Analysis) (regex : String) (alternatives : List String),
        analyzeSource dottedSource = .ok analysis ∧
        analysis.regexOf? Delimiter.defaultName = some regex ∧
        regex = groupStart ++ "|".intercalate (alternatives.map escape) ++ ")" ∧
        alternatives.find? (fun text => text.toList.isPrefixOf ['.', '.', '.']) = some ".." := by
  have synthesized : ∀ expression ∈ dottedDocument.expressions,
      expression.name ≠ Delimiter.defaultName := by decide
  rcases analyze_dottedSource with ⟨analysis, analyzed, found, _⟩
  rcases delimiter_matches_longest_literal parse_dottedSource analyzed synthesized found with
    ⟨alternatives, spelled, _, _, _, _, _, first⟩
  refine ⟨parse_dottedSource, synthesized, analysis, _, alternatives, analyzed, found, spelled,
    (first "..." "..").mpr ⟨dottedDocument_usesLiterals.2, by decide, ?_⟩⟩
  intro other used _
  rw [Document.usesLiteral_iff, Document.mem_literals_iff] at used
  have listed : other ∈ [".", ".."] := used
  simp only [List.mem_cons, List.not_mem_nil, or_false] at listed
  rcases listed with rfl | rfl
  · decide
  · decide

end GrammarBook
