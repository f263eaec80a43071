import GrammarBook.Proofs.Layout.Survival
import GrammarBook.Proofs.Reading.Acceptance
import GrammarBook.Proofs.Token.Placement
import GrammarBook.RoundTrip

namespace GrammarBook

/-!
# Canonical texts are read back

The canonical text of a document that was read is read as that document again. Comments are what
makes this more than a matter of phrases: a comment ends at the first closing line behind it, and
where there is none, at a closing mark in front. The first two comments of a document have a closing
line behind them in any text, that of the next comment. The last one must not get one, and does not,
since rules and expressions write none.
-/

namespace Token

/-! ## Tokens of a source -/

/-- A token that does not stand last was cut off in front of the tokens behind it. -/
theorem Cover.split {before text : List Char} {front back : List Token} {token : Token}
    (cover : Cover before text (front ++ token :: back)) (more : back ≠ []) :
    ∃ reached rest, Cover reached rest back ∧
      Kind.lexeme? (token.text.toList ++ rest) = some (token.kind, token.text.toList, rest) := by
  generalize whole : front ++ token :: back = tokens at cover
  induction cover generalizing front with
  | finish | halt =>
      cases front with
      | nil =>
          cases whole
          exact absurd rfl more
      | cons head front =>
          have none := (List.cons.inj whole).2
          exact absurd none (List.append_ne_nil_of_right_ne_nil front (List.cons_ne_nil token back))
  | token blank explicit nonempty lexeme later ih =>
      cases front with
      | nil =>
          cases whole
          rw [String.toList_ofList]
          exact ⟨_, _, later, lexeme⟩
      | cons head front => exact ih (List.cons.inj whole).2

/-- The text of a token stands in the text that it accounts for. -/
theorem Cover.infix_of_mem {before text : List Char} {tokens : List Token} {token : Token}
    (cover : Cover before text tokens) (member : token ∈ tokens) : token.text.toList <:+: text := by
  induction cover with
  | finish =>
      rw [List.mem_singleton.mp member]
      exact List.nil_infix
  | @halt before gap rest c blank illegal =>
      rw [List.mem_singleton.mp member, String.toList_ofList]
      exact ⟨gap, rest, by simp⟩
  | @token before gap text rest kind tokens blank explicit nonempty lexeme later ih =>
      rcases List.mem_cons.mp member with rfl | inLater
      · rw [String.toList_ofList]
        exact ⟨gap, rest, rfl⟩
      · exact (ih inLater).trans (List.suffix_append (gap ++ text) rest).isInfix

/-- All tokens of a source but its end, and what is no token at all, are well spelled. -/
theorem Cover.isSpelled_of_mem {before text : List Char} {tokens : List Token} {token : Token}
    (cover : Cover before text tokens) (member : token ∈ tokens) (notEof : token.kind ≠ .eof)
    (notError : token.kind ≠ .error) : Grammar.IsSpelled token := by
  rcases cover.exists_of_mem member notEof notError with ⟨_, _, _, _, lexeme⟩
  exact Kind.isSpelled_of_lexeme? lexeme

end Token

namespace Grammar

open Token Walk

/-! ## Derivations of other tokens -/

theorem eq_of_toWord {one other : Token} (same : one.toWord = other.toWord) :
    one.kind = other.kind ∧ one.text = other.text := by
  obtain ⟨sameKind, sameText⟩ := Prod.mk.inj same
  exact ⟨sameKind, String.toList_inj.mp sameText⟩

theorem IsMark.of_toWord {text : String} {one other : Token} (fits : IsMark text other)
    (same : one.toWord = other.toWord) : IsMark text one := by
  obtain ⟨sameKind, sameText⟩ := eq_of_toWord same
  exact ⟨sameKind.trans fits.1, sameText.trans fits.2⟩

/-- Tokens that are the same but for their places have a derivation that stands for the same. -/
theorem Derivation.relabel {form : Form} (derivation : Derivation form) {tokens : List Token}
    (same : tokens.map toWord = derivation.tokens.map toWord) :
    ∃ other : Derivation form, other.tokens = tokens ∧ other.meaning = derivation.meaning := by
  induction derivation generalizing tokens with
  | token leaf fits =>
      obtain ⟨token, rfl, sameWord⟩ := List.map_eq_singleton_iff.mp same
      obtain ⟨sameKind, sameText⟩ := eq_of_toWord sameWord
      exact ⟨.token token (sameKind.trans fits), rfl, sameText⟩
  | mark leaf fits =>
      obtain ⟨token, rfl, sameWord⟩ := List.map_eq_singleton_iff.mp same
      exact ⟨.mark token (fits.of_toWord sameWord), rfl, (eq_of_toWord sameWord).2⟩
  | bullet newline dash ends fits =>
      obtain ⟨first, others, rfl, sameNewline, sameOthers⟩ := List.map_eq_cons_iff.mp same
      obtain ⟨second, rfl, sameDash⟩ := List.map_eq_singleton_iff.mp sameOthers
      exact ⟨.bullet first second ((eq_of_toWord sameNewline).1.trans ends) (fits.of_toWord sameDash),
        rfl, rfl⟩
  | part inner ih =>
      obtain ⟨other, taken, means⟩ := ih same
      exact ⟨.part other, taken, congrArg (build _) means⟩
  | empty => exact ⟨.empty, (List.map_eq_nil_iff.mp same).symm, rfl⟩
  | absent => exact ⟨.absent, (List.map_eq_nil_iff.mp same).symm, rfl⟩
  | done => exact ⟨.done, (List.map_eq_nil_iff.mp same).symm, rfl⟩
  | next front back front_ih back_ih =>
      rw [Derivation.tokens, List.map_append] at same
      obtain ⟨one, other, rfl, sameFront, sameBack⟩ := List.map_eq_append_iff.mp same
      obtain ⟨newFront, rfl, frontMeans⟩ := front_ih sameFront
      obtain ⟨newBack, rfl, backMeans⟩ := back_ih sameBack
      exact ⟨.next newFront newBack, rfl, Prod.ext frontMeans backMeans⟩
  | left inner ih =>
      obtain ⟨other, taken, means⟩ := ih same
      exact ⟨.left other, taken, congrArg Sum.inl means⟩
  | right inner ih =>
      obtain ⟨other, taken, means⟩ := ih same
      exact ⟨.right other, taken, congrArg Sum.inr means⟩
  | present inner ih =>
      obtain ⟨other, taken, means⟩ := ih same
      exact ⟨.present other, taken, congrArg some means⟩
  | more first others first_ih others_ih =>
      rw [Derivation.tokens, List.map_append] at same
      obtain ⟨one, other, rfl, sameFirst, sameOthers⟩ := List.map_eq_append_iff.mp same
      obtain ⟨newFirst, rfl, firstMeans⟩ := first_ih sameFirst
      obtain ⟨newOthers, rfl, othersMean⟩ := others_ih sameOthers
      exact ⟨.more newFirst newOthers, rfl, List.cons_eq_cons.mpr ⟨firstMeans, othersMean⟩⟩
  | several first others first_ih others_ih =>
      rw [Derivation.tokens, List.map_append] at same
      obtain ⟨one, other, rfl, sameFirst, sameOthers⟩ := List.map_eq_append_iff.mp same
      obtain ⟨newFirst, rfl, firstMeans⟩ := first_ih sameFirst
      obtain ⟨newOthers, rfl, othersMean⟩ := others_ih sameOthers
      exact ⟨.several newFirst newOthers, rfl, List.cons_eq_cons.mpr ⟨firstMeans, othersMean⟩⟩

/-! ## Where comments stand -/

/-- The token is no part of a rule or an expression. -/
def isOuterKind (kind : Kind) : Bool := kind == .comment || kind == .eof || kind == .error

/-- Forms that stand for what is inside of a document, without its comments and its end. -/
def isInner : Form → Bool
  | .token kind => !isOuterKind kind
  | .mark _ | .bullet | .empty => true
  | .part production => production != .document && production != .notice
  | .next first rest => isInner first && isInner rest
  | .either left right => isInner left && isInner right
  | .optional form | .many form | .several form => isInner form

theorem isInner_form {production : Production} (inner : isInner (.part production) = true) :
    isInner (form production) = true := by
  revert inner
  cases production <;> decide

/-- Rules and expressions have no comment, and the source does not end in them. -/
theorem not_isOuterKind {form : Form} (derivation : Derivation form) (inner : isInner form = true) :
    ∀ token ∈ derivation.tokens, isOuterKind token.kind = false := by
  induction derivation with
  | token leaf fits =>
      subst fits
      intro token member
      rw [List.mem_singleton.mp member]
      exact Bool.not_eq_true' _ ▸ inner
  | mark leaf fits =>
      intro token member
      rw [List.mem_singleton.mp member, fits.1]
      rfl
  | bullet newline dash ends fits =>
      intro token member
      rcases List.mem_cons.mp member with rfl | isDash
      · rw [ends]
        rfl
      · rw [List.mem_singleton.mp isDash, fits.1]
        rfl
  | part phrase ih => exact ih (isInner_form inner)
  | empty | absent | done => exact fun _ member => absurd member List.not_mem_nil
  | next front back front_ih back_ih =>
      obtain ⟨innerFront, innerBack⟩ := Bool.and_eq_true_iff.mp inner
      exact List.forall_mem_append.mpr ⟨front_ih innerFront, back_ih innerBack⟩
  | left phrase ih => exact ih (Bool.and_eq_true_iff.mp inner).1
  | right phrase ih => exact ih (Bool.and_eq_true_iff.mp inner).2
  | present phrase ih => exact ih inner
  | more first others first_ih others_ih | several first others first_ih others_ih =>
      exact List.forall_mem_append.mpr ⟨first_ih inner, others_ih inner⟩

/-- Rules and expressions have no comment among their words. -/
theorem ne_comment_of_mem {form : Form} (derivation : Derivation form) (inner : isInner form = true) :
    ∀ word ∈ derivation.tokens.map toWord, word.1 ≠ .comment := by
  intro word member isComment
  obtain ⟨token, inTokens, rfl⟩ := List.mem_map.mp member
  have notOuter := not_isOuterKind derivation inner token inTokens
  rw [show token.kind = .comment from isComment] at notOuter
  cases notOuter

/-- What is inside of a document of a source is what some source writes. -/
theorem isWritable_of_cover {form : Form} (derivation : Derivation form) (inner : isInner form = true)
    {before text : List Char} {tokens : List Token} (cover : Cover before text tokens)
    (subset : ∀ token ∈ derivation.tokens, token ∈ tokens) :
    IsWritable form derivation.meaning := by
  refine ⟨derivation, rfl, fun token member => ?_⟩
  have notOuter := not_isOuterKind derivation inner token member
  apply cover.isSpelled_of_mem (subset token member)
  · intro isEof
    rw [isEof] at notOuter
    cases notOuter
  · intro isError
    rw [isError] at notOuter
    cases notOuter

/-! ## Documents -/

/-- No closing line comes in the text. -/
def Unclosed (text : List Char) : Prop := ¬ Kind.closingLine <:+: text

/-- The text is that of a comment, which ends before any text that fits. -/
def IsComment (fits : List Char → Prop) (text : String) : Prop :=
  Kind.comment.acceptsChars text.toList = true ∧
    ∀ rest, fits rest → Kind.comment.EndsBefore text.toList rest

/-- What a document has that was read of a source. -/
structure HasSource (document : Document) : Prop where
  notice : IsComment Any document.notice
  leading : IsComment Any document.leading
  someRules : document.rules ≠ []
  rules : ∀ rule ∈ document.rules, IsWritable (.part .rule) rule
  trailing : IsComment Unclosed document.trailing
  someExpressions : document.expressions ≠ []
  expressions : ∀ expression ∈ document.expressions, IsWritable (.part .expression) expression
  ascending : Reading.IsAscending document.expressions

section Survives

variable {indentSize depth : Nat} {first rest : Form} {fits begins : List Char → Prop}

/-- A comment survives with what comes behind the empty line, if it ends before that. -/
theorem survives_comment {text : String} {ends : List Char → Prop} (isComment : IsComment ends text)
    (derivation : Derivation first) (alone : derivation.tokens.map toWord = [(.comment, text.toList)])
    {events later : List Event} {back : rest.Meaning}
    (writes : Writes indentSize depth events (text.toList ++ ['\n', '\n']))
    (survives : Survives indentSize depth rest back later fits fun rest => ends ('\n' :: '\n' :: rest)) :
    Survives indentSize depth (.next first (.next (.many (.token .newline)) rest))
      (derivation.meaning, (newlines 2).meaning, back) (events ++ later) fits Any := by
  obtain ⟨behind, other, rfl, writesBack, reads, starts⟩ := survives
  refine ⟨text.toList ++ ['\n', '\n'] ++ behind, .next derivation (.next (newlines 2) other), rfl,
    writes.append writesBack, ?_, fun _ _ => True.intro⟩
  intro rest words fitting lexed
  have before := isComment.2 _ (starts rest fitting)
  simp only [Derivation.tokens, List.map_append, alone, List.append_assoc]
  exact .word (by decide) (Kind.lexeme?_exact ⟨isComment.1, Kind.noConfusion⟩ before)
    (lexed_newlines 2 (reads rest words fitting lexed))

/-- What is inside of a document does not close a comment in front of it. -/
theorem Survives.unclosed {form : Form} {value : form.Meaning} {events : List Event}
    (survives : Survives indentSize depth form value events Any begins)
    (inner : isInner form = true) :
    Survives indentSize depth form value events (· = [])
      fun rest => Unclosed ('\n' :: '\n' :: rest) := by
  obtain ⟨text, derivation, same, writes, reads, _⟩ := survives
  refine ⟨text, derivation, same, writes, fun rest words _ => reads rest words True.intro, ?_⟩
  rintro rest rfl
  apply not_closingLine_of_lexed (lexed_newlines 2 (reads [] [] True.intro .finish))
  rw [List.append_nil]
  exact List.forall_mem_append.mpr
    ⟨ne_comment_of_mem (newlines 2) rfl, ne_comment_of_mem derivation inner⟩

theorem writes_comment (text : String) :
    Writes indentSize depth [.leaf .comment text] (text.toList ++ ['\n', '\n']) := by
  intro formatter _ _ _
  change formatter.append (Formatter.leafText .comment text).toList = _
  rw [Formatter.leafText, String.toList_append]
  rfl

def comment (text : String) : Derivation (.token .comment) := .token ⟨.comment, text, .start⟩ rfl

def notice (text : String) : Derivation (.part .notice) := .part (.next (comment text) .empty)

/-- The form of a document without the end of its source. -/
def unendedForm : Form := rowForm (spaced documentItems.dropLast)

/-- A document that has a source survives, up to the end of the text. -/
theorem survives_document {document : Document} (source : HasSource document) :
    Survives indentSize depth unendedForm
      (document.notice, (newlines 2).meaning, document.leading, (newlines 2).meaning, document.rules,
        document.trailing, (newlines 2).meaning, document.expressions, ())
      document.events (· = []) Any := by
  have rules : Survives indentSize depth (.several (.part .rule)) document.rules
      (each Rule.events document.rules) Any Any :=
    survives_each source.someRules fun rule member => survives_rule (source.rules rule member)
  have expressions : Survives indentSize depth (.several (.part .expression)) document.expressions
      (each Expression.events document.expressions) Any Any :=
    survives_each source.someExpressions fun expression member =>
      survives_expression (source.expressions expression member)
  have enter : ∀ formatter,
      Formatter.step formatter (.enter (.document document) none) = formatter := fun _ => rfl
  have leave : ∀ formatter,
      Formatter.step formatter (.leave (.document document) none) = formatter := fun _ => rfl
  have writesNotice : Writes indentSize depth
      (within (.notice document.notice) none [.leaf .comment document.notice])
      (document.notice.toList ++ ['\n', '\n']) := writes_comment document.notice
  have ended := (expressions.unclosed rfl).next survives_empty
  rw [List.append_nil] at ended
  have fromTrailing := survives_comment source.trailing (comment document.trailing) rfl
    (writes_comment document.trailing) ended
  have fromLeading := survives_comment source.leading (comment document.leading) rfl
    (writes_comment document.leading) (rules.next fromTrailing)
  have whole := survives_comment source.notice (notice document.notice) rfl writesNotice fromLeading
  exact (whole.entered enter).departed leave

end Survives

/-! ## Documents of a source -/

section Source

variable {before text : List Char} {tokens front back : List Token} {leaf : Token}

/-- A comment of a source ends before any text that closes no comment. -/
theorem isComment_unclosed (cover : Cover before text (front ++ leaf :: back))
    (ofKind : leaf.kind = .comment) (more : back ≠ []) : IsComment Unclosed leaf.text := by
  obtain ⟨_, rest, _, lexeme⟩ := cover.split more
  rw [ofKind] at lexeme
  refine ⟨(Kind.lexeme?_sound lexeme).2.1, fun rest unclosed => ?_⟩
  exact Kind.endsBefore_comment (Kind.munch?_of_lexeme? lexeme) fun closed => absurd closed unclosed

/-- A comment of a source in front of another one ends before any text at all. -/
theorem isComment_any (cover : Cover before text (front ++ leaf :: back))
    (ofKind : leaf.kind = .comment) {later : Token} (member : later ∈ back)
    (alsoComment : later.kind = .comment) : IsComment Any leaf.text := by
  obtain ⟨_, rest, coverRest, lexeme⟩ := cover.split (List.ne_nil_of_mem member)
  rw [ofKind] at lexeme
  have spelled : IsSpelled later := coverRest.isSpelled_of_mem member
    (by rw [alsoComment]; decide) (by rw [alsoComment]; decide)
  rw [IsSpelled, alsoComment] at spelled
  have closed : Kind.closingLine <:+: rest :=
    (Kind.closingLine_infix_comment spelled.1).trans (coverRest.infix_of_mem member)
  refine ⟨(Kind.lexeme?_sound lexeme).2.1, fun rest _ => ?_⟩
  exact Kind.endsBefore_comment (Kind.munch?_of_lexeme? lexeme) fun _ => closed

end Source

/-- A document that was read of a source has one. -/
theorem hasSource_of_derivation {source : String} (derivation : Derivation (form .document))
    {behind : List Token} (taken : derivation.tokens ++ behind = scan source) {document : Document}
    (means : Reading.IsDocumentOf derivation document) : HasSource document := by
  have cover := cover_scan source
  rw [← taken] at cover
  match derivation with
  | .next (.part (.next (.token notice isNotice) .empty)) (.next one (.next (.token leading isLeading)
      (.next two (.next rules (.next (.token trailing isTrailing) (.next three
        (.next expressions (.next (.token eof _) .empty)))))))) =>
    have writableRules : IsWritable (.several (.part .rule)) rules.meaning :=
      isWritable_of_cover rules rfl cover (by simp +contextual [Derivation.tokens])
    have writableExpressions : IsWritable (.several (.part .expression)) expressions.meaning :=
      isWritable_of_cover expressions rfl cover (by simp +contextual [Derivation.tokens])
    have perm := means.expressions.perm
    simp only [Derivation.tokens, List.append_assoc, List.cons_append, List.nil_append] at cover
    have fromNotice : Cover [] source.toList ([] ++ notice :: (one.tokens ++ leading :: _)) := cover
    have fromLeading := cover
    rw [← List.cons_append] at fromLeading
    have fromTrailing := fromLeading
    rw [← List.cons_append, ← List.append_assoc (leading :: two.tokens),
      ← List.append_assoc (notice :: one.tokens)] at fromTrailing
    refine ⟨?_, ?_, ?_, ?_, ?_, ?_, ?_, means.expressions.ascending⟩
    · rw [means.notice]
      exact isComment_any fromNotice isNotice (by simp) isLeading
    · rw [means.leading]
      exact isComment_any fromLeading isLeading (by simp) isTrailing
    · rw [means.rules]
      exact writableRules.several.1
    · rw [means.rules]
      exact writableRules.several.2
    · rw [means.trailing]
      exact isComment_unclosed fromTrailing isTrailing (by simp)
    · intro none
      rw [none] at perm
      exact writableExpressions.several.1 perm.symm.eq_nil
    · intro expression member
      exact writableExpressions.several.2 expression (perm.mem_iff.mp member)

end Grammar
end GrammarBook
