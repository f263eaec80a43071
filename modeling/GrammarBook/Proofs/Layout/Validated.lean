import GrammarBook.Proofs.Layout.RoundTrip
import GrammarBook.Proofs.Layout.Writable
import GrammarBook.Proofs.Token.Comment
import GrammarBook.Proofs.Validation.Exact

namespace GrammarBook

/-!
# Which valid documents are read back

A validator judges every leaf by itself. A scanner comes to a leaf in the middle of a text, and takes
the name of an intrinsic for an intrinsic wherever it stands, and the first line that starts with the
closing mark for the end of a comment, however far away that line is. Valid documents that hold no
such leaf are read back from what is written of them, and no others are.
-/

namespace Grammar

open Token

/-- Only its end closes the comment. -/
def ClosesOnce (text : String) : Prop := Kind.ClosesAtEnd (Kind.commentBody text.toList)

/-- There are lines between the opening and the closing one. -/
def HasLines (text : String) : Prop := Kind.commentBody text.toList ≠ ['<', '!']

/-- In front of other comments, a comment ends where it should if it has lines and only its end closes
it. -/
theorem isComment_any_iff {text : String} :
    IsComment Any text ↔ Kind.comment.accepts text = true ∧ HasLines text ∧ ClosesOnce text := by
  refine and_congr_right fun accepted => ?_
  simp only [Kind.endsBefore_comment_iff accepted]
  constructor
  · intro ends
    refine ⟨fun empty => ?_, ?_⟩
    · have prolonged := ends Kind.closingLine True.intro
      rw [empty] at prolonged
      cases prolonged
    · have alone := ends [] True.intro
      rw [List.append_nil] at alone
      exact Kind.closesAtEnd_of_cutCommentBody alone
  · rintro ⟨some, atEnd⟩ rest -
    have closed := (Kind.closes_commentBody accepted).resolve_left some
    exact Kind.cutCommentBody_append_of_closesAtEnd closed atEnd rest

/-- In front of rules or expressions, a comment may also be empty. -/
theorem isComment_unclosed_iff {text : String} :
    IsComment Unclosed text ↔ Kind.comment.accepts text = true ∧ ClosesOnce text := by
  refine and_congr_right fun accepted => ?_
  simp only [Kind.endsBefore_comment_iff accepted]
  constructor
  · intro ends
    have alone := ends [] fun closed => absurd (List.infix_nil.mp closed) (by decide)
    rw [List.append_nil] at alone
    exact Kind.closesAtEnd_of_cutCommentBody alone
  · intro atEnd rest unclosed
    rcases Kind.closes_commentBody accepted with empty | closed
    · rw [empty]
      have none : Kind.cutAtClosingLine ('<' :: '!' :: rest) = none := by
        rw [Kind.cutAtClosingLine_eq_none_iff, List.infix_cons_iff, List.infix_cons_iff]
        rintro (⟨more, here⟩ | ⟨more, here⟩ | later)
        · cases here
        · cases here
        · exact unclosed later
      change Kind.cutCommentBody ('<' :: '!' :: rest) = some (['<', '!'], rest)
      rw [Kind.cutCommentBody, none]
    · exact Kind.cutCommentBody_append_of_closesAtEnd closed atEnd rest

end Grammar

open Grammar

/-- No leaf of the document is taken for something else where it stands: no name of a rule is that of
an intrinsic, and only the end of a comment closes it, which must have lines if comments follow. -/
structure Document.IsReadable (document : Document) : Prop where
  names : ∀ name, .leaf .uppercase name ∈ document.parts → name ∉ intrinsicNames
  notice : HasLines document.notice ∧ ClosesOnce document.notice
  leading : HasLines document.leading ∧ ClosesOnce document.leading
  trailing : ClosesOnce document.trailing

/-! ## Reading valid documents back -/

/-- A leaf that a validator accepts is well spelled, unless it names an intrinsic for a rule. -/
theorem isSpelled_iff_of_accepts {kind : Kind} {text : String} (accepted : kind.accepts text = true) :
    kind.IsSpelled text.toList ↔ (kind = .uppercase → text ∉ intrinsicNames) := by
  rw [Kind.IsSpelled, Kind.mem_intrinsicTexts_iff]
  exact and_iff_right accepted

theorem spelled_iff_of_sound {parts : List Part} (sound : ∀ part ∈ parts, part.IsSound) :
    Spelled parts ↔ ∀ name, .leaf .uppercase name ∈ parts → name ∉ intrinsicNames := by
  constructor
  · intro spelled name member
    exact (isSpelled_iff_of_accepts (sound _ member)).mp (spelled _ name member) rfl
  · intro names kind text member
    refine (isSpelled_iff_of_accepts (sound _ member)).mpr ?_
    rintro rfl
    exact names text member

/-- What stands between the comments of a document. -/
theorem spelled_parts_iff (document : Document) :
    Spelled document.parts ↔
      (Kind.comment.accepts document.notice = true ∧ Kind.comment.accepts document.leading = true ∧
        Kind.comment.accepts document.trailing = true) ∧
      (∀ rule ∈ document.rules, Spelled rule.parts) ∧
      ∀ expression ∈ document.expressions, Spelled expression.parts := by
  have comment (text : String) :
      Kind.comment.IsSpelled text.toList ↔ Kind.comment.accepts text = true := and_iff_left nofun
  rw [Document.parts, spelled_leaf_cons_iff, spelled_leaf_cons_iff, spelled_append_iff,
    spelled_leaf_cons_iff, comment, comment, comment, spelled_flatMap_iff, spelled_flatMap_iff]
  grind

/-- A document has a source exactly if its lists are filled, its expressions in order, and its leaves
well spelled with comments that end where they should. -/
theorem hasSource_iff (document : Document) :
    HasSource document ↔ document.isFilled = true ∧ Reading.IsAscending document.expressions ∧
      Spelled document.parts ∧ (HasLines document.notice ∧ ClosesOnce document.notice) ∧
      (HasLines document.leading ∧ ClosesOnce document.leading) ∧ ClosesOnce document.trailing := by
  have filled : document.isFilled = true ↔
      (document.rules ≠ [] ∧ ∀ rule ∈ document.rules, rule.definition.isFilled = true) ∧
      document.expressions ≠ [] ∧
        ∀ expression ∈ document.expressions, expression.pattern.isFilled = true := by
    simp [Document.isFilled]
  rw [filled, spelled_parts_iff]
  constructor
  · intro source
    obtain ⟨notice, noticeFits⟩ := isComment_any_iff.mp source.notice
    obtain ⟨leading, leadingFits⟩ := isComment_any_iff.mp source.leading
    obtain ⟨trailing, trailingFits⟩ := isComment_unclosed_iff.mp source.trailing
    have rules := fun rule member => isWritable_rule_iff.mp (source.rules rule member)
    have expressions := fun expression member =>
      isWritable_expression_iff.mp (source.expressions expression member)
    exact ⟨⟨⟨source.someRules, fun rule member => (rules rule member).1⟩, source.someExpressions,
      fun expression member => (expressions expression member).1⟩, source.ascending,
      ⟨⟨notice, leading, trailing⟩, fun rule member => (rules rule member).2,
        fun expression member => (expressions expression member).2⟩,
      noticeFits, leadingFits, trailingFits⟩
  · rintro ⟨⟨⟨someRules, filledRules⟩, someExpressions, filledExpressions⟩, ascending,
      ⟨⟨notice, leading, trailing⟩, rules, expressions⟩, noticeFits, leadingFits, trailingFits⟩
    exact
      { notice := isComment_any_iff.mpr ⟨notice, noticeFits⟩
        leading := isComment_any_iff.mpr ⟨leading, leadingFits⟩
        someRules := someRules
        rules := fun rule member =>
          isWritable_rule_iff.mpr ⟨filledRules rule member, rules rule member⟩
        trailing := isComment_unclosed_iff.mpr ⟨trailing, trailingFits⟩
        someExpressions := someExpressions
        expressions := fun expression member =>
          isWritable_expression_iff.mpr
            ⟨filledExpressions expression member, expressions expression member⟩
        ascending := ascending }

/-- What is written of a document is read as the same document exactly if some source has it. -/
theorem read_back_iff_hasSource (document : Document) (formatter : Formatter) (reader : Parser) :
    (∃ text, (formatter.format document).1 = .ok text ∧ reader.parse text = .ok document) ↔
      HasSource document := by
  constructor
  · rintro ⟨text, _, read⟩
    exact reader.hasSource_of_parse read
  · intro source
    obtain ⟨text, derivation, written, means, lexed⟩ := format_written source formatter
    exact ⟨String.ofList text, congrArg Prod.fst written, reader.parse_of_lexed source means lexed⟩

/-- A valid document whose lists are filled and whose expressions are in order is read back of what any
formatter writes exactly if it is readable. -/
theorem valid_document_read_back_iff (validator : Validator) (document : Document)
    (valid : (validator.validate document).1 = .ok ()) (filled : document.isFilled = true)
    (ascending : Reading.IsAscending document.expressions) (formatter : Formatter) (reader : Parser) :
    (∃ text, (formatter.format document).1 = .ok text ∧ reader.parse text = .ok document) ↔
      document.IsReadable := by
  have isValid := Document.isValid_of_validate valid
  rw [read_back_iff_hasSource, hasSource_iff, spelled_iff_of_sound isValid.sound]
  constructor
  · rintro ⟨_, _, names, notice, leading, trailing⟩
    exact ⟨names, notice, leading, trailing⟩
  · rintro ⟨names, notice, leading, trailing⟩
    exact ⟨filled, ascending, names, notice, leading, trailing⟩

theorem smallDocument_isReadable :
    (∃ text, (({} : Formatter).format Reading.smallDocument).1 = .ok text ∧
      ({} : Parser).parse text = .ok Reading.smallDocument) ∧ Reading.smallDocument.IsReadable := by
  have source : HasSource Reading.smallDocument :=
    Parser.hasSource_of_parse {} (parse_smallSource {})
  have readBack := (read_back_iff_hasSource Reading.smallDocument {} {}).mpr source
  have valid : (({} : Validator).validate Reading.smallDocument).1 = .ok () := by rfl
  exact ⟨readBack, (valid_document_read_back_iff {} Reading.smallDocument valid (by decide)
    source.ascending {} {}).mp readBack⟩

/-- A document whose only rule has the name of an intrinsic. -/
def ruleNamedAny : Document where
  notice := "!>\nn\n<!"
  leading := "!>\nl\n<!"
  rules := [⟨"ANY", .inlined [.literal "\"x\""] none⟩]
  trailing := "!>\n<!"
  expressions := [⟨"a", .mk (.mk [.mk (.atom (.literal "\"x\"")) none]) [], none⟩]

/-- The name of a rule that is valid by itself is read as an intrinsic. -/
theorem ruleNamedAny_not_read_back :
    (({} : Validator).validate ruleNamedAny).1 = .ok () ∧ ruleNamedAny.isFilled = true ∧
      Reading.IsAscending ruleNamedAny.expressions ∧
      ∀ (formatter : Formatter) (reader : Parser), ¬ ∃ text,
        (formatter.format ruleNamedAny).1 = .ok text ∧ reader.parse text = .ok ruleNamedAny := by
  have valid : (({} : Validator).validate ruleNamedAny).1 = .ok () := by rfl
  refine ⟨valid, by decide, by simp [Reading.IsAscending, ruleNamedAny], ?_⟩
  intro formatter reader readBack
  have spelled := ((hasSource_iff ruleNamedAny).mp
    ((read_back_iff_hasSource ruleNamedAny formatter reader).mp readBack)).2.2.1
  have name : .leaf .uppercase "ANY" ∈ ruleNamedAny.parts := by
    simp [Document.parts, ruleNamedAny, Rule.parts]
  exact (spelled .uppercase "ANY" name).2 rfl (by decide)

end GrammarBook
