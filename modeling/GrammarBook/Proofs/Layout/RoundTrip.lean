import GrammarBook.Proofs.Layout.Stability

namespace GrammarBook

/-!
# Round trips

What is read of a source is written in one way, and read back from what is written. So the second
half of a round trip never fails, and a canonical text is its own canonical text.
-/

namespace Grammar

open Token Walk

/-- A document is written as a text that is scanned as a derivation of it, and its formatter is left
cleared. -/
theorem format_written {document : Document} (source : HasSource document) (formatter : Formatter) :
    ∃ (text : List Char) (derivation : Derivation unendedForm),
      formatter.format document = (.ok (String.ofList text), formatter.cleared) ∧
        derivation.meaning = (document.notice, (newlines 2).meaning, document.leading,
          (newlines 2).meaning, document.rules, document.trailing, (newlines 2).meaning,
          document.expressions, ()) ∧
        Lexed text (derivation.tokens.map toWord) := by
  obtain ⟨text, derivation, means, writes, reads, _⟩ := survives_document source
  refine ⟨text, derivation, ?_, means, ?_⟩
  · rw [Formatter.format_eq, writes formatter.cleared rfl rfl rfl]
    simp [Formatter.append, Formatter.cleared]
  · simpa using reads [] [] rfl .finish

/-- The end of the source completes a document. -/
theorem exists_ended {notice leading trailing : String} {rules : List Rule}
    {expressions : List Expression} {one two three : List String} (derivation : Derivation unendedForm)
    (means : derivation.meaning = (notice, one, leading, two, rules, trailing, three, expressions, ())) :
    ∃ whole : Derivation (form .document),
      whole.tokens = derivation.tokens ++ [⟨.eof, "", .start⟩] ∧
        build .document whole.meaning = ⟨notice, leading, rules, trailing, expressions⟩ := by
  match derivation with
  | .next notice (.next one (.next leading (.next two (.next rules (.next trailing (.next three
      (.next expressions .empty))))))) =>
    cases means
    refine ⟨.next notice (.next one (.next leading (.next two (.next rules (.next trailing
      (.next three (.next expressions (.next (.token ⟨.eof, "", .start⟩ rfl) .empty)))))))), ?_, rfl⟩
    simp [Derivation.tokens]

end Grammar

namespace Parser

open Grammar Token

variable (parser : Parser)

/-- A parser finds what is read of the tokens of the source. -/
theorem parse_eq_ok_iff (source : String) (document : Document) :
    parser.parse source = .ok document ↔
      ∃ rest, Reading.document (.start (scan source)) = .found document rest := by
  rw [parse]
  cases outcome : Reading.document (.start (scan source)) with
  | found found rest => simp
  | absent rest => simp
  | rejected cause rest => simp

/-- A document that is read with its expressions in order is parsed as it is read. -/
theorem parse_of_read {source : String} {document : Document} {tokens : List Token}
    (rest : Reading.Cursor) (scanned : scan source = tokens)
    (ascending : Reading.IsAscending document.expressions)
    (reads : Reading.document (.start tokens) =
      .found { document with expressions := Reading.sortExpressions document.expressions } rest) :
    parser.parse source = .ok document := by
  rw [Reading.sortExpressions_of_ascending ascending, ← scanned] at reads
  exact (parse_eq_ok_iff parser source document).mpr ⟨rest, reads⟩

theorem hasSource_of_parse {source : String} {document : Document}
    (read : parser.parse source = .ok document) : HasSource document := by
  obtain ⟨rest, reads⟩ := (parse_eq_ok_iff parser source document).mp read
  obtain ⟨derivation, taken, means⟩ :=
    (Reading.document_found_iff (scan source) document rest.pending).mp ⟨rest, reads, rfl⟩
  exact hasSource_of_derivation derivation taken means

/-- A source that is scanned as a document, places aside, is parsed as that document. -/
theorem parse_of_words {source : String} (derivation : Derivation (form .document))
    (scanned : (scan source).map toWord = derivation.tokens.map toWord) :
    parser.parse source = .ok (Reading.inOrder (build .document derivation.meaning)) := by
  obtain ⟨other, sameTokens, sameMeaning⟩ := derivation.relabel scanned
  have isDocument : Reading.IsDocumentOf other
      (Reading.inOrder (build .document derivation.meaning)) := by
    rw [Reading.isDocumentOf_iff, sameMeaning]
  obtain ⟨rest, reads, _⟩ := (Reading.document_found_iff _ _ []).mpr
    ⟨other, (List.append_nil _).trans sameTokens, isDocument⟩
  exact (parse_eq_ok_iff parser _ _).mpr ⟨rest, reads⟩

/-- A text that is scanned as a derivation of a document is parsed as that document. -/
theorem parse_of_lexed {document : Document} (source : HasSource document) {text : List Char}
    {derivation : Derivation unendedForm}
    (means : derivation.meaning = (document.notice, (newlines 2).meaning, document.leading,
      (newlines 2).meaning, document.rules, document.trailing, (newlines 2).meaning,
      document.expressions, ()))
    (lexed : Lexed text (derivation.tokens.map toWord)) :
    parser.parse (String.ofList text) = .ok document := by
  obtain ⟨whole, taken, wholeMeans⟩ := exists_ended derivation means
  have scanned : (scan (String.ofList text)).map toWord = whole.tokens.map toWord := by
    rw [taken, List.map_append]
    exact scan_lexed (by rwa [String.toList_ofList])
  rw [parse_of_words parser whole scanned, wholeMeans, Reading.inOrder,
    Reading.sortExpressions_of_ascending source.ascending]

/-- What a parser has read is written, and every parser reads it of what is written. -/
theorem exists_format (reader : Parser) {source : String} {document : Document}
    (read : parser.parse source = .ok document) (formatter : Formatter) :
    ∃ text, formatter.format document = (.ok text, formatter.cleared) ∧
      reader.parse text = .ok document := by
  have hasSource := hasSource_of_parse parser read
  obtain ⟨text, derivation, written, means, lexed⟩ := format_written hasSource formatter
  exact ⟨String.ofList text, written, parse_of_lexed reader hasSource means lexed⟩

end Parser

/-! ## Checks and canonical texts -/

/-- A formatter starts afresh anyway. -/
theorem Formatter.format_cleared (formatter : Formatter) (document : Document) :
    formatter.cleared.format document = formatter.format document := by
  rw [format_eq, format_eq]
  rfl

/-- The check of a round trip succeeds on what can be read and is valid, and formatting changes
nothing more. -/
theorem RoundTrip.check_of_valid (parser : Parser) {source : String} {document : Document}
    (read : parser.parse source = .ok document) (valid : document.validate = .ok ())
    (formatter : Formatter) :
    ∃ trip, RoundTrip.check parser formatter source = .ok trip ∧ trip.isIdempotent = true := by
  obtain ⟨text, written, reread⟩ := parser.exists_format parser read formatter
  have rewritten : formatter.cleared.format document = (.ok text, formatter.cleared) := by
    rw [Formatter.format_cleared, written]
  refine ⟨⟨source, text, text⟩, ?_, beq_self_eq_true text⟩
  simp only [check, read, valid, written, reread, rewritten, bind, Except.bind]
  rfl

theorem formatSource_eq_ok_iff {source text : String} :
    formatSource source = .ok text ↔
      ∃ document, ({} : Parser).parse source = .ok document ∧ document.validate = .ok () ∧
        (({} : Formatter).format document).1 = .ok text := by
  unfold formatSource
  cases ({} : Parser).parse source with
  | error fault => simp [bind, Except.bind]
  | ok document =>
      cases valid : document.validate with
      | error fault => simp [bind, Except.bind, valid]
      | ok done => simp [bind, Except.bind, valid]

/-- A canonical text is its own canonical text. -/
theorem formatSource_of_formatSource {source text : String}
    (formatted : formatSource source = .ok text) : formatSource text = .ok text := by
  obtain ⟨document, read, valid, written⟩ := formatSource_eq_ok_iff.mp formatted
  obtain ⟨text', sameWritten, reread⟩ := Parser.exists_format {} {} read {}
  have sameText : text' = text := by
    rw [sameWritten] at written
    exact Except.ok.inj written
  rw [sameText] at reread
  exact formatSource_eq_ok_iff.mpr ⟨document, reread, valid, written⟩

/-- What is read of a source is read again of its canonical text, whatever the indentation. So
checks succeed on every source that can be read and is valid, and formatting is idempotent. -/
theorem canonical_text_read_back (parser : Parser) (source : String) (document : Document)
    (read : parser.parse source = .ok document) :
    (∀ (formatter : Formatter) (reader : Parser), ∃ text,
      (formatter.format document).1 = .ok text ∧ reader.parse text = .ok document) ∧
    (document.validate = .ok () → ∀ formatter : Formatter, ∃ trip,
      RoundTrip.check parser formatter source = .ok trip ∧ trip.isIdempotent = true) ∧
    ∀ text, formatSource source = .ok text → formatSource text = .ok text := by
  refine ⟨?_, ?_, fun text => formatSource_of_formatSource⟩
  · intro formatter reader
    obtain ⟨text, written, reread⟩ := parser.exists_format reader read formatter
    exact ⟨text, congrArg Prod.fst written, reread⟩
  · intro valid formatter
    exact RoundTrip.check_of_valid parser read valid formatter

/-- A source with its expressions out of order. -/
def smallSource : String := "!>\nn\n<!\n!>\nl\n<!\nR:\n- a\n!>\n<!\nb: a\na: \"x\"\n"

def smallText : String :=
  "!>\nn\n<!\n\n!>\nl\n<!\n\nR:\n  - a\n\n!>\n<!\n\na: \"x\"\n\nb: a\n"

theorem parse_smallSource (parser : Parser) :
    parser.parse smallSource = .ok Reading.smallDocument := by
  have scanned : Token.scan smallSource = Reading.smallDerivation.tokens := by decide +kernel
  rw [Parser.parse_eq_ok_iff, scanned]
  obtain ⟨rest, reads, _⟩ := (Reading.document_found_iff _ Reading.smallDocument []).mpr
    ⟨Reading.smallDerivation, List.append_nil _, Reading.isDocumentOf_small⟩
  exact ⟨rest, reads⟩

theorem parse_smallText (parser : Parser) :
    parser.parse smallText = .ok Reading.smallDocument := by
  obtain ⟨text, written, reread⟩ := Parser.exists_format {} parser (parse_smallSource {}) {}
  have isSmall : (({} : Formatter).format Reading.smallDocument).1 = .ok smallText := by rfl
  rw [written] at isSmall
  exact Except.ok.inj isSmall ▸ reread

theorem smallText_read_back :
    ({} : Parser).parse smallText = .ok Reading.smallDocument ∧
      (∃ trip, RoundTrip.check {} {} smallSource = .ok trip ∧ trip.isIdempotent = true) ∧
      formatSource smallText = .ok smallText := by
  have written : (({} : Formatter).format Reading.smallDocument).1 = .ok smallText := by rfl
  have valid : Reading.smallDocument.validate = .ok () := by rfl
  obtain ⟨returns, checks, isStable⟩ :=
    canonical_text_read_back {} smallSource Reading.smallDocument (parse_smallSource {})
  obtain ⟨text, sameWritten, reread⟩ := returns {} {}
  rw [written] at sameWritten
  cases sameWritten
  have formatted := formatSource_eq_ok_iff.mpr
    ⟨Reading.smallDocument, parse_smallSource {}, valid, written⟩
  exact ⟨reread, checks valid {}, isStable smallText formatted⟩

end GrammarBook
