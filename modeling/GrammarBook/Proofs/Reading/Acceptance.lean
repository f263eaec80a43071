import GrammarBook.Proofs.Reading.Completeness
import GrammarBook.Proofs.Reading.Order

namespace GrammarBook
namespace Reading

open Grammar

/-!
# Reading accepts its grammar

Reading a document succeeds just on the tokens that the productions derive, on each with the one
document that its derivation stands for. Tokens are read up to the end of the source; where that
token stands last and nowhere else, all tokens are read.
-/

/-- The token for the end of the source stands last, and nowhere else. -/
def EndsInEof (tokens : List Token) : Prop :=
  ∃ body last, tokens = body ++ [last] ∧ last.kind = .eof ∧ ∀ token ∈ body, token.kind ≠ .eof

/-- The document that a derivation stands for, with its expressions stably sorted by their names. -/
structure IsDocumentOf (derivation : Derivation (form .document)) (document : Document) :
    Prop where
  notice : document.notice = (build .document derivation.meaning).notice
  leading : document.leading = (build .document derivation.meaning).leading
  rules : document.rules = (build .document derivation.meaning).rules
  trailing : document.trailing = (build .document derivation.meaning).trailing
  expressions :
    StablySorted (build .document derivation.meaning).expressions document.expressions

theorem isDocumentOf_iff {derivation : Derivation (form .document)} {document : Document} :
    IsDocumentOf derivation document ↔
      document = inOrder (build .document derivation.meaning) := by
  rcases document with ⟨notice, leading, rules, trailing, expressions⟩
  constructor
  · rintro ⟨rfl, rfl, rfl, rfl, sorted⟩
    cases stablySorted_iff.mp sorted
    rfl
  · intro same
    cases same
    exact ⟨rfl, rfl, rfl, rfl, sortExpressions_sorts _⟩

/-- A document has the token for the end of its source. -/
theorem exists_eof (derivation : Derivation (form .document)) :
    ∃ token ∈ derivation.tokens, token.kind = .eof := by
  match derivation with
  | .next _ (.next _ (.next _ (.next _ (.next _ (.next _ (.next _ (.next _
      (.next (.token leaf fits) .empty)))))))) =>
    refine ⟨leaf, ?_, fits⟩
    simp only [Derivation.tokens]
    simp

/-- Nothing is left behind a document that is read up to the last token. -/
theorem rest_eq_nil {tokens rest : List Token} (derivation : Derivation (form .document))
    (ends : EndsInEof tokens) (taken : tokens = derivation.tokens ++ rest) : rest = [] := by
  obtain ⟨body, last, rfl, _, onlyLast⟩ := ends
  rcases List.eq_nil_or_concat rest with none | ⟨others, final, rfl⟩
  · exact none
  · obtain ⟨token, member, isEof⟩ := exists_eof derivation
    rw [List.concat_eq_append, ← List.append_assoc] at taken
    have sameBody := (List.append_inj' taken rfl).1
    have inBody : token ∈ body := by
      rw [sameBody]
      exact List.mem_append_left _ member
    exact absurd isEof (onlyLast token inBody)

/-- What is read of a document is what can be derived, with the tokens behind it left. -/
theorem document_found_iff (tokens : List Token) (found : Document) (behind : List Token) :
    (∃ rest, document (.start tokens) = .found found rest ∧ rest.pending = behind) ↔
      ∃ derivation : Derivation (form .document),
        derivation.tokens ++ behind = tokens ∧ IsDocumentOf derivation found := by
  constructor
  · rintro ⟨rest, reads, rfl⟩
    obtain ⟨derivation, means, taken⟩ := document_sound reads
    exact ⟨derivation, taken.symm, isDocumentOf_iff.mpr means⟩
  · rintro ⟨derivation, taken, means⟩
    obtain ⟨rest, reads, left⟩ := document_complete derivation
      ((Cursor.pending_start tokens).trans taken.symm)
    exact ⟨rest, isDocumentOf_iff.mp means ▸ reads, left⟩

/-- A document is read just where it can be derived, and then in one way. -/
theorem document_iff_derivation (tokens : List Token) :
    (∀ found behind,
      (∃ rest, document (.start tokens) = .found found rest ∧ rest.pending = behind) ↔
        ∃ derivation : Derivation (form .document),
          derivation.tokens ++ behind = tokens ∧ IsDocumentOf derivation found) ∧
    (EndsInEof tokens → ∀ found,
      (∃ rest, document (.start tokens) = .found found rest) ↔
        ∃ derivation : Derivation (form .document),
          derivation.tokens = tokens ∧ IsDocumentOf derivation found) ∧
    ∀ (one other : Derivation (form .document)) (behind behind' : List Token),
      one.tokens ++ behind = tokens → other.tokens ++ behind' = tokens → one = other := by
  refine ⟨document_found_iff tokens, ?_, ?_⟩
  · intro ends found
    constructor
    · rintro ⟨rest, reads⟩
      obtain ⟨derivation, taken, means⟩ :=
        (document_found_iff tokens found rest.pending).mp ⟨rest, reads, rfl⟩
      rw [rest_eq_nil derivation ends taken.symm, List.append_nil] at taken
      exact ⟨derivation, taken, means⟩
    · rintro ⟨derivation, taken, means⟩
      obtain ⟨rest, reads, _⟩ := (document_found_iff tokens found []).mpr
        ⟨derivation, (List.append_nil _).trans taken, means⟩
      exact ⟨rest, reads⟩
  · intro one other behind behind' taken taken'
    have unguarded : ∀ rest, ahead rest ∉ (form .document).guard := fun _ member =>
      absurd (guard_form_subset .document member) List.not_mem_nil
    exact (one.unique (isClear_form .document) other behind behind' (unguarded behind)
      (unguarded behind') (taken.trans taken'.symm)).1

/-! ## A small document -/

/-- A token with a derivation of its own. -/
def leaf (kind : Kind) (text : String) (line position : Nat) : Derivation (.token kind) :=
  .token ⟨kind, text, ⟨line, position⟩⟩ rfl

/-- A delimiter with a derivation of its own. -/
def sign (text : String) (line position : Nat) : Derivation (.mark text) :=
  .mark ⟨.delimiter, text, ⟨line, position⟩⟩ ⟨rfl, rfl⟩

def lineBreak (line position : Nat) : Derivation (.token .newline) := leaf .newline "\n" line position

def smallRule : Derivation (form .rule) :=
  let line : Derivation (form .line) :=
    .next (.bullet ⟨.newline, "\n", ⟨7, 3⟩⟩ ⟨.delimiter, "-", ⟨8, 1⟩⟩ rfl ⟨rfl, rfl⟩)
      (.next (.part (.left (leaf .lowercase "a" 8 3))) (.next .absent .empty))
  let multiline : Derivation (form .multiline) := .next (.several (.part line) .done) .empty
  .next (leaf .uppercase "R" 7 1) (.next (sign ":" 7 2) (.next (.part (.left (.part multiline)))
    (.next (.several (lineBreak 8 4) .done) .empty)))

/-- The derivation of an expression for an atom alone. -/
def smallExpression (name : String) (atom : Derivation (form .text)) (line position : Nat) :
    Derivation (form .expression) :=
  let repetition : Derivation (form .repetition) :=
    .next (.part (.right (.right (.part atom)))) (.next .absent .empty)
  let pattern : Derivation (form .pattern) :=
    .next (.part (.next (.several (.part repetition) .done) .empty)) (.next .done .empty)
  .next (leaf .lowercase name line 1) (.next (sign ":" line 2) (.next (.part pattern)
    (.next .absent (.next (.several (lineBreak line position) .done) .empty))))

/-- The derivation of a document whose expressions are not in the order of their names. -/
def smallDerivation : Derivation (form .document) :=
  .next (.part (.next (leaf .comment "!>\nn\n<!" 1 1) .empty))
    (.next (.more (lineBreak 3 3) .done) (.next (leaf .comment "!>\nl\n<!" 4 1)
    (.next (.more (lineBreak 6 3) .done) (.next (.several (.part smallRule) .done)
    (.next (leaf .comment "!>\n<!" 9 1) (.next (.more (lineBreak 10 3) .done)
    (.next (.several
      (.part (smallExpression "b" (.right (.right (.right (leaf .lowercase "a" 11 4)))) 11 5))
      (.more
        (.part (smallExpression "a" (.right (.right (.left (leaf .literal "\"x\"" 12 4)))) 12 7))
        .done))
    (.next (leaf .eof "" 13 1) .empty))))))))

/-- An expression for an atom alone. -/
def atomExpression (name : String) (atom : Atom) : Expression :=
  ⟨name, .mk (.mk [.mk (.atom atom) none]) [], none⟩

def smallDocument : Document :=
  ⟨"!>\nn\n<!", "!>\nl\n<!", [⟨"R", .multiline [⟨.lower "a", none⟩]⟩], "!>\n<!",
    [atomExpression "a" (.literal "\"x\""), atomExpression "b" (.lowercase "a")]⟩

theorem isDocumentOf_small : IsDocumentOf smallDerivation smallDocument := by
  refine ⟨rfl, rfl, rfl, rfl, List.Perm.swap .., ?_, ?_⟩
  · exact List.pairwise_pair.mpr (by decide)
  · intro name
    change called name [atomExpression "a" _, atomExpression "b" _] =
      called name [atomExpression "b" _, atomExpression "a" _]
    simp only [called, List.filter_cons, List.filter_nil, atomExpression]
    by_cases isFirst : "a" = name
    · subst isFirst
      rfl
    · have notFirst : ¬ ("a" == name) = true := by simpa using isFirst
      simp only [if_neg notFirst]
      rfl

theorem smallTokens_read :
    EndsInEof smallDerivation.tokens ∧
      ∃ rest, document (.start smallDerivation.tokens) = .found smallDocument rest := by
  have ends : EndsInEof smallDerivation.tokens :=
    ⟨smallDerivation.tokens.dropLast, ⟨.eof, "", ⟨13, 1⟩⟩, rfl, rfl, by decide⟩
  exact ⟨ends, ((document_iff_derivation smallDerivation.tokens).2.1 ends smallDocument).mpr
    ⟨smallDerivation, rfl, isDocumentOf_small⟩⟩

end Reading
end GrammarBook
