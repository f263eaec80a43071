import GrammarBook.Analysis.Analyzer
import GrammarBook.Proofs.Layout.RoundTrip
import GrammarBook.Proofs.Reading.Rejection
import GrammarBook.Proofs.Token.Joining

namespace GrammarBook

/-!
# Expressions in another order

A source that can be read is a heading with blocks behind it, one for each expression, and every piece
is a phrase when it is scanned alone. Pieces put together are read as what they stand for alone: a
block ends with a newline, so that no token goes on into the next one, and no block can close a
comment of the heading. What is read then depends on the order of the blocks only through the order
of expressions of one name.
-/

namespace Reading

/-! ## Sorting -/

theorem called_of_perm {one other : List Expression} (perm : one.Perm other)
    (distinct : (one.map Expression.name).Nodup) (name : String) :
    called name one = called name other := by
  have same : (called name one).Perm (called name other) := perm.filter _
  have few : ((called name one).map Expression.name).Nodup :=
    distinct.sublist (List.filter_sublist.map _)
  have named : ∀ expression ∈ called name one, expression.name = name :=
    fun _ member => (mem_called.mp member).2
  match alone : called name one with
  | [] =>
      rw [alone] at same
      exact same.nil_eq
  | [expression] =>
      rw [alone] at same
      exact (List.perm_singleton.mp same.symm).symm
  | first :: second :: others =>
      rw [alone] at few named
      have sameName : first.name = second.name :=
        (named first (by simp)).trans (named second (by simp)).symm
      simp [sameName] at few

/-- Expressions of distinct names are sorted into the same order, whatever order they come in. -/
theorem sortExpressions_of_perm {one other : List Expression} (perm : one.Perm other)
    (distinct : (one.map Expression.name).Nodup) : sortExpressions one = sortExpressions other := by
  have sorts := sortExpressions_sorts one
  exact stablySorted_iff.mp ⟨sorts.perm.trans perm, sorts.ascending,
    fun name => (sorts.stable name).trans (called_of_perm perm distinct name)⟩

end Reading

namespace Grammar

open Token

/-! ## Phrases that end a line -/

/-- Phrases of the form end with a newline or a comment, if they have tokens. -/
def endsLine : Form → Bool
  | .token kind => kind.isTerminal
  | .empty => true
  | .next first rest => endsLine rest && (endsLine first || !rest.isNullable)
  | .many form | .several form => endsLine form
  | .mark _ | .bullet | .part _ | .either _ _ | .optional _ => false

theorem endsLine_tokens {form : Form} (derivation : Derivation form) (ends : endsLine form = true) :
    EndsLine (derivation.tokens.map toWord) := by
  induction derivation with
  | token leaf fits =>
      subst fits
      rintro word ⟨⟩
      exact ends
  | empty | done => exact nofun
  | @next first rest front back front_ih back_ih =>
      simp only [endsLine, Bool.and_eq_true, Bool.or_eq_true, Bool.not_eq_true'] at ends
      rw [Derivation.tokens, List.map_append]
      refine EndsLine.append (back_ih ends.1) fun none => ?_
      rcases ends.2 with endsFront | full
      · exact front_ih endsFront
      · exact absurd (List.map_eq_nil_iff.mp none) (back.tokens_ne_nil full)
  | more first others first_ih others_ih | several first others first_ih others_ih =>
      rw [Derivation.tokens, List.map_append]
      exact EndsLine.append (others_ih ends) fun _ => first_ih ends
  | mark | bullet | part | left | right | absent | present => cases ends

/-! ## Phrases that are scanned alone -/

/-- When the text is scanned alone, its tokens are those of a phrase of the form, and the phrase stands
for the value. -/
def IsPhrase (form : Form) (text : List Char) (value : form.Meaning) : Prop :=
  ∃ derivation : Derivation form, derivation.meaning = value ∧
    (scan (String.ofList text)).map toWord = derivation.tokens.map toWord ++ [(.eof, [])]

/-- The form of what stands before the expressions of a document. -/
def headingForm : Form := rowForm (spaced (documentItems.take 4))

/-- What stands before the expressions of a document. -/
structure Heading where
  text : List Char
  value : headingForm.Meaning
  isPhrase : IsPhrase headingForm text value

/-- The document of a heading with expressions behind it. -/
def Heading.document (heading : Heading) (expressions : List Expression) : Document :=
  let (notice, _, leading, _, rules, trailing, _, _) := heading.value
  ⟨notice, leading, rules, trailing, expressions⟩

theorem Heading.inOrder_document (heading : Heading) (expressions : List Expression) :
    Reading.inOrder (heading.document expressions) =
      heading.document (Reading.sortExpressions expressions) := rfl

/-- The text of an expression with the newlines behind it. -/
structure Block where
  text : List Char
  expression : Expression
  isPhrase : IsPhrase (.part .expression) text expression
  begins : text.head?.all (!Kind.isBlank ·) = true

/-- Blanks between blocks. -/
abbrev Gap := {gap : List Char // IsGap gap}

/-- A source in pieces: a heading, blocks with blanks before each, and blanks at the end. -/
structure Sheet where
  heading : Heading
  blocks : List (Gap × Block)
  someBlock : blocks ≠ []
  back : Gap

namespace Sheet

/-- A gap with the block behind it. -/
def spread (piece : Gap × Block) : List Char := piece.1.val ++ piece.2.text

/-- The pieces put together. -/
def source (sheet : Sheet) : String :=
  String.ofList (sheet.heading.text ++ (sheet.blocks.flatMap spread ++ sheet.back.val))

/-- The expressions in the order of their blocks. -/
def expressions (sheet : Sheet) : List Expression := sheet.blocks.map (·.2.expression)

/-- The document that the pieces stand for, in the order of the source. -/
def document (sheet : Sheet) : Document := sheet.heading.document sheet.expressions

/-- The one sheet has the blocks of the other in some order, with any blanks between them. -/
structure Reorders (sheet other : Sheet) : Prop where
  heading : sheet.heading = other.heading
  blocks : (sheet.blocks.map Prod.snd).Perm (other.blocks.map Prod.snd)

end Sheet

/-! ## Pieces put together -/

theorem isPhrase_iff {form : Form} {text : List Char} {value : form.Meaning} :
    IsPhrase form text value ↔ ∃ derivation : Derivation form,
      derivation.meaning = value ∧ Lexed text (derivation.tokens.map toWord) := by
  simp only [IsPhrase, lexed_iff]

/-- An expression ends with a newline. -/
theorem endsLine_expression (derivation : Derivation (.part .expression)) :
    EndsLine (derivation.tokens.map toWord) :=
  match derivation with
  | .part inner => endsLine_tokens inner rfl

/-- Blocks in a row are a phrase of expressions in a row. -/
theorem exists_row (blocks : List (Gap × Block)) (back : Gap) :
    ∃ derivation : Derivation (.many (.part .expression)),
      derivation.meaning = blocks.map (·.2.expression) ∧
        Lexed (blocks.flatMap Sheet.spread ++ back.val) (derivation.tokens.map toWord) := by
  induction blocks with
  | nil =>
      have blank : Lexed (back.val ++ []) [] := Lexed.finish.behindGap back.property
      rw [List.append_nil] at blank
      exact ⟨.done, rfl, blank⟩
  | cons piece blocks ih =>
      obtain ⟨gap, block⟩ := piece
      obtain ⟨others, othersMean, lexedOthers⟩ := ih
      obtain ⟨first, firstMeans, lexedFirst⟩ := isPhrase_iff.mp block.isPhrase
      refine ⟨.more first others, List.cons_eq_cons.mpr ⟨firstMeans, othersMean⟩, ?_⟩
      rw [List.flatMap_cons, Sheet.spread, List.append_assoc, List.append_assoc, Derivation.tokens,
        List.map_append]
      have behind := ne_comment_of_mem others (by decide)
      exact (lexedFirst.append (endsLine_expression first) lexedOthers behind).behindGap gap.property

namespace Sheet

/-- The pieces put together are scanned as the document that they stand for. -/
theorem exists_derivation (sheet : Sheet) :
    ∃ whole : Derivation (form .document), build .document whole.meaning = sheet.document ∧
      (scan sheet.source).map toWord = whole.tokens.map toWord := by
  obtain ⟨⟨text, value, isPhrase⟩, blocks, someBlock, back⟩ := sheet
  obtain ⟨heading, rfl, lexedHeading⟩ := isPhrase_iff.mp isPhrase
  obtain ⟨row, rowMeans, lexedRow⟩ := exists_row blocks back
  have lexed := lexedHeading.append (endsLine_tokens heading rfl) lexedRow
    (ne_comment_of_mem row (by decide))
  have scanned := lexed_iff.mp lexed
  match heading, row with
  | _, .done => exact absurd (List.map_eq_nil_iff.mp rowMeans.symm) someBlock
  | .next notice (.next one (.next leading (.next two (.next rules (.next trailing
      (.next three .empty)))))), .more first others =>
    refine ⟨.next notice (.next one (.next leading (.next two (.next rules (.next trailing
      (.next three (.next (.several first others)
        (.next (.token ⟨.eof, "", .start⟩ rfl) .empty)))))))), ?_, ?_⟩
    · exact congrArg (Document.mk notice.meaning leading.meaning rules.meaning trailing.meaning)
        rowMeans
    · rw [source, scanned]
      simp only [Derivation.tokens, List.map_append, List.append_assoc]
      rfl

/-- The pieces put together are read as the document that they stand for, with its expressions
sorted. -/
theorem parse_source (sheet : Sheet) (parser : Parser) :
    parser.parse sheet.source = .ok (Reading.inOrder sheet.document) := by
  obtain ⟨whole, means, scanned⟩ := sheet.exists_derivation
  rw [parser.parse_of_words whole scanned, means]

end Sheet

/-! ## Sources in pieces -/

/-- A text that is an expression behind blanks has a block. -/
theorem exists_block {text : List Char} (derivation : Derivation (.part .expression))
    (lexed : Lexed text (derivation.tokens.map toWord)) :
    ∃ piece : Gap × Block, Sheet.spread piece = text ∧ piece.2.expression = derivation.meaning := by
  have blank : IsGap (text.takeWhile Kind.isBlank) := by
    intro c member
    have isBlank := List.all_eq_true.mp List.all_takeWhile c member
    simpa [Kind.isBlank] using isBlank
  exact ⟨⟨⟨text.takeWhile Kind.isBlank, blank⟩, text.dropWhile Kind.isBlank, derivation.meaning,
    isPhrase_iff.mpr ⟨derivation, rfl, lexed.dropBlanks⟩, Kind.stop_dropWhile _ _⟩,
    List.takeWhile_append_dropWhile, rfl⟩

/-- A text that is a row of expressions is a row of blocks. -/
theorem exists_blocks {text : List Char} : (row : Derivation (.many (.part .expression))) →
    Lexed text (row.tokens.map toWord) → ∃ (blocks : List (Gap × Block)) (back : Gap),
      text = blocks.flatMap Sheet.spread ++ back.val ∧ blocks.map (·.2.expression) = row.meaning
  | .done, lexed => ⟨[], ⟨text, lexed.isGap⟩, rfl, rfl⟩
  | .more first others, lexed => by
      rw [Derivation.tokens, List.map_append] at lexed
      obtain ⟨front, behind, rfl, lexedFirst, lexedOthers⟩ := lexed.split (endsLine_expression first)
      obtain ⟨piece, rfl, firstMeans⟩ := exists_block first lexedFirst
      obtain ⟨blocks, back, rfl, othersMean⟩ := exists_blocks others lexedOthers
      refine ⟨piece :: blocks, back, ?_, List.cons_eq_cons.mpr ⟨firstMeans, othersMean⟩⟩
      rw [List.flatMap_cons, List.append_assoc]

/-- A source that can be read consists of a heading and blocks. -/
theorem exists_sheet {parser : Parser} {source : String} {document : Document}
    (read : parser.parse source = .ok document) : ∃ sheet : Sheet, sheet.source = source := by
  obtain ⟨rest, reads⟩ := (parser.parse_eq_ok_iff source document).mp read
  obtain ⟨derivation, taken, _⟩ := (Reading.isStream_scan source).exists_derivation reads
  match derivation with
  | .next notice (.next one (.next leading (.next two (.next rules (.next trailing (.next three
      (.next (.several first others) (.next (.token leaf fits) .empty)))))))) =>
    let heading : Derivation headingForm := .next notice (.next one (.next leading (.next two
      (.next rules (.next trailing (.next three .empty))))))
    let row : Derivation (.many (.part .expression)) := .more first others
    have words : (scan source).map toWord =
        (heading.tokens.map toWord ++ row.tokens.map toWord) ++ [leaf.toWord] := by
      rw [← taken]
      simp only [heading, row, Derivation.tokens, List.map_append, List.append_assoc]
      rfl
    have lexed := lexed_of_cover (cover_scan source) words fits
    obtain ⟨front, behind, whole, lexedHeading, lexedRow⟩ :=
      lexed.split (endsLine_tokens heading rfl)
    obtain ⟨blocks, back, rfl, rowMeans⟩ := exists_blocks row lexedRow
    have someBlock : blocks ≠ [] := by
      rintro rfl
      cases rowMeans
    refine ⟨⟨⟨front, heading.meaning, isPhrase_iff.mpr ⟨heading, rfl, lexedHeading⟩⟩, blocks,
      someBlock, back⟩, ?_⟩
    rw [Sheet.source, ← whole, String.ofList_toList]

/-- The document of the pieces depends on the order of the blocks through that of their expressions. -/
theorem Sheet.Reorders.inOrder_eq {sheet other : Sheet} (reorders : sheet.Reorders other)
    (distinct : (other.expressions.map Expression.name).Nodup) :
    Reading.inOrder sheet.document = Reading.inOrder other.document := by
  have perm : other.expressions.Perm sheet.expressions := by
    have same := reorders.blocks.symm.map Block.expression
    rwa [List.map_map, List.map_map] at same
  rw [Sheet.document, Sheet.document, Heading.inOrder_document, Heading.inOrder_document,
    reorders.heading, Reading.sortExpressions_of_perm perm distinct]

end Grammar

open Grammar

theorem formatSource_congr {source other : String}
    (same : ({} : Parser).parse source = ({} : Parser).parse other) :
    formatSource source = formatSource other := by
  rw [formatSource, same, formatSource]

theorem analyzeSource_congr {source other : String}
    (same : ({} : Parser).parse source = ({} : Parser).parse other) :
    analyzeSource source = analyzeSource other := by
  rw [analyzeSource, same, analyzeSource]

/-- A source that can be read consists of a heading and blocks, and those of one name are read in the
order in which they stand. With distinct names, every other order of the blocks is read as the same
document, whatever blanks are between them, and has the same canonical text and the same analysis. -/
theorem expression_order_is_normalized (parser : Parser) (source : String) (document : Document)
    (read : parser.parse source = .ok document) :
    (∃ sheet : Sheet, sheet.source = source) ∧
    ∀ sheet : Sheet, sheet.source = source →
      (∀ name, Reading.called name document.expressions = Reading.called name sheet.expressions) ∧
      ((sheet.expressions.map Expression.name).Nodup → ∀ other : Sheet, other.Reorders sheet →
        parser.parse other.source = .ok document ∧
          formatSource other.source = formatSource source ∧
          analyzeSource other.source = analyzeSource source) := by
  refine ⟨exists_sheet read, ?_⟩
  rintro sheet rfl
  obtain rfl : Reading.inOrder sheet.document = document :=
    Except.ok.inj ((sheet.parse_source parser).symm.trans read)
  refine ⟨fun name => (Reading.sortExpressions_sorts sheet.expressions).stable name, ?_⟩
  intro distinct other reorders
  have same : ∀ reader : Parser, reader.parse other.source = reader.parse sheet.source := by
    intro reader
    rw [other.parse_source reader, sheet.parse_source reader, reorders.inOrder_eq distinct]
  exact ⟨(same parser).trans read, formatSource_congr (same {}), analyzeSource_congr (same {})⟩

/-- What stands before the expressions of the small source. -/
def smallHeading : Heading :=
  let derivation : Derivation headingForm :=
    .next (.part (.next (Reading.leaf .comment "!>\nn\n<!" 1 1) .empty))
      (.next (.more (Reading.lineBreak 3 3) .done) (.next (Reading.leaf .comment "!>\nl\n<!" 4 1)
      (.next (.more (Reading.lineBreak 6 3) .done) (.next (.several (.part Reading.smallRule) .done)
      (.next (Reading.leaf .comment "!>\n<!" 9 1) (.next (.more (Reading.lineBreak 10 3) .done)
      .empty))))))
  ⟨"!>\nn\n<!\n!>\nl\n<!\nR:\n- a\n!>\n<!\n".toList, derivation.meaning, derivation, rfl,
    by decide +kernel⟩

def nameBlock : Block where
  text := "b: a\n".toList
  expression := Reading.atomExpression "b" (.lowercase "a")
  isPhrase := ⟨.part (Reading.smallExpression "b"
    (.right (.right (.right (Reading.leaf .lowercase "a" 1 4)))) 1 5), rfl, by decide +kernel⟩
  begins := rfl

def literalBlock : Block where
  text := "a: \"x\"\n".toList
  expression := Reading.atomExpression "a" (.literal "\"x\"")
  isPhrase := ⟨.part (Reading.smallExpression "a"
    (.right (.right (.left (Reading.leaf .literal "\"x\"" 1 4)))) 1 7), rfl, by decide +kernel⟩
  begins := rfl

def noGap : Gap := ⟨[], nofun⟩

def smallSheet : Sheet := ⟨smallHeading, [(noGap, nameBlock), (noGap, literalBlock)], nofun, noGap⟩

/-- The small source with its expressions the other way round, and blanks before the second of them. -/
def turnedSheet : Sheet :=
  ⟨smallHeading, [(noGap, literalBlock), (⟨[' ', '\t'], by simp [Token.IsGap]⟩, nameBlock)], nofun,
    noGap⟩

/-- The two sources are read alike. -/
theorem turnedSheet_read :
    (({} : Parser).parse smallSource = .ok Reading.smallDocument ∧ smallSheet.source = smallSource ∧
      (smallSheet.expressions.map Expression.name).Nodup ∧ turnedSheet.Reorders smallSheet) ∧
    turnedSheet.source =
      "!>\nn\n<!\n!>\nl\n<!\nR:\n- a\n!>\n<!\na: \"x\"\n \tb: a\n" ∧
    ({} : Parser).parse turnedSheet.source = .ok Reading.smallDocument ∧
      formatSource turnedSheet.source = formatSource smallSource ∧
      analyzeSource turnedSheet.source = analyzeSource smallSource := by
  have read := parse_smallSource {}
  have whole : smallSheet.source = smallSource := by rfl
  have distinct : (smallSheet.expressions.map Expression.name).Nodup := by decide
  have reorders : turnedSheet.Reorders smallSheet := ⟨rfl, List.Perm.swap ..⟩
  obtain ⟨_, sheets⟩ := expression_order_is_normalized {} smallSource Reading.smallDocument read
  obtain ⟨_, others⟩ := sheets smallSheet whole
  exact ⟨⟨read, whole, distinct, reorders⟩, by rfl, others distinct turnedSheet reorders⟩

end GrammarBook
