import GrammarBook.Document.Basic
import GrammarBook.Reading.Cursor

namespace GrammarBook
namespace Reading

/-!
# Reading the productions

One reader for each production of the notation. A production that has taken its first token must be
completed: whatever is then missing is rejected in its name.
-/

/-- Newlines, of which there may be none. -/
def newlines : Reader (List String) := (token .newline).row

/-- The newlines that end a rule or an expression. -/
def lineEnd (production : Production) : Reader (List String) :=
  (token .newline).row1.required production

/-- The upper end of a constraint. -/
def limit : Reader Limit := do
  let _ ← delimiter ".."
  let maximum ← (token .number).optional
  pure ⟨maximum⟩

def constrained : Reader Constraint := do
  let _ ← delimiter "\x7b"
  let minimum ← (token .number).required .constrained
  let limit ← limit.optional
  let _ ← (delimiter "\x7d").required .constrained
  pure ⟨minimum, limit⟩

def cardinality : Reader Cardinality :=
  (Cardinality.constrained <$> constrained).orElse (Cardinality.quantified <$> token .quantified)

def identifier : Reader Identifier :=
  (Identifier.lower <$> token .lowercase).orElse (Identifier.upper <$> token .uppercase)

def reference : Reader Reference := do
  let identifier ← identifier
  let cardinality ← cardinality.optional
  pure ⟨identifier, cardinality⟩

def bracket (term : Reader Term) : Reader Term := do
  let _ ← delimiter "("
  let terms ← term.row1.required .bracket
  let _ ← (delimiter ")").required .bracket
  let cardinality ← cardinality.optional
  pure (.bracket terms cardinality)

/-- A term with brackets up to the given depth. -/
def termWithin : Nat → Reader Term
  | 0 => Reader.bottom
  | depth + 1 =>
    ((Term.reference <$> reference).orElse (bracket (termWithin depth))).orElse
      (Term.literal <$> token .literal)

def term : Reader Term := Reader.nested termWithin

/-- A newline with the dash of a further line behind it. Both are handed back where the newline
does not lead to a line. -/
def bullet : Reader Unit := fun cursor =>
  match nextToken cursor with
  | .found newline rest =>
    if newline.kind = .newline then
      match nextToken rest with
      | .found dash rest =>
        if dash.kind = .delimiter ∧ dash.text = "-" then .found () rest
        else .absent ((rest.handBack dash).handBack newline)
      | .absent rest => .absent rest
      | .rejected cause rest => .rejected cause rest
    else .absent (rest.handBack newline)
  | .absent rest => .absent rest
  | .rejected cause rest => .rejected cause rest

def line : Reader Line := do
  bullet
  let identifier ← identifier.required .line
  let note ← (token .note).optional
  pure ⟨identifier, note⟩

/-- Terms in a row, with a note. -/
def inlined : Reader Definition := do
  let terms ← term.row1
  let note ← (token .note).optional
  pure (.inlined terms note)

/-- What a rule stands for. -/
def definition : Reader Definition :=
  (Definition.multiline <$> line.row1).orElse inlined

/-- A rule with the newlines behind it. -/
def rule : Reader Rule := do
  let name ← token .uppercase
  let _ ← (delimiter ":").required .rule
  let definition ← definition.required .rule
  let _ ← lineEnd .rule
  pure ⟨name, definition⟩

/-- The upper end of a range of glyphs. -/
def extent : Reader String := do
  let _ ← delimiter ".."
  (token .glyph).required .extent

def bounded : Reader Bounded := do
  let glyph ← token .glyph
  let extent ← extent.optional
  pure ⟨glyph, extent⟩

def character : Reader Character :=
  (Character.bounded <$> bounded).orElse (Character.intrinsic <$> token .intrinsic)

/-- A filter. The mark of an excluded filter has to be followed by its bracket. -/
def filter : Reader Filter := do
  let excluded ← (token .excluded).optional
  let _ ← if excluded.isSome then (delimiter "[").required .filter else delimiter "["
  let characters ← character.row1.required .filter
  let _ ← (delimiter "]").required .filter
  pure ⟨excluded, characters⟩

/-- The smallest piece of a pattern. -/
def atom : Reader Atom :=
  (((Atom.bounded <$> bounded).orElse (Atom.intrinsic <$> token .intrinsic)).orElse
    (Atom.literal <$> token .literal)).orElse (Atom.lowercase <$> token .lowercase)

/-- A pattern in brackets. -/
def group (pattern : Reader Pattern) : Reader Pattern := do
  let _ ← delimiter "("
  let pattern ← pattern.required .group
  let _ ← (delimiter ")").required .group
  pure pattern

/-- What can be repeated. -/
def element (pattern : Reader Pattern) : Reader Element :=
  ((Element.group <$> group pattern).orElse (Element.filter <$> filter)).orElse
    (Element.atom <$> atom)

def repetition (pattern : Reader Pattern) : Reader Repetition := do
  let element ← element pattern
  let cardinality ← cardinality.optional
  pure (.mk element cardinality)

def sequence (pattern : Reader Pattern) : Reader Sequence :=
  Sequence.mk <$> (repetition pattern).row1

/-- A further sequence of a pattern. -/
def alternative (pattern : Reader Pattern) : Reader Sequence := do
  let _ ← delimiter "|"
  (sequence pattern).required .alternative

/-- A pattern with groups up to the given depth. -/
def patternWithin : Nat → Reader Pattern
  | 0 => Reader.bottom
  | depth + 1 => do
    let first ← sequence (patternWithin depth)
    let alternatives ← (alternative (patternWithin depth)).row
    pure (.mk first alternatives)

def pattern : Reader Pattern := Reader.nested patternWithin

/-- An expression with the newlines behind it. -/
def expression : Reader Expression := do
  let name ← token .lowercase
  let _ ← (delimiter ":").required .expression
  let pattern ← pattern.required .expression
  let note ← (token .note).optional
  let _ ← lineEnd .expression
  pure ⟨name, pattern, note⟩

/-- A comment of the document with the newlines that may follow it. -/
def heading : Reader String := do
  let comment ← (token .comment).required .document
  let _ ← newlines
  pure comment

/-- The expressions in the order of their names; those of one name keep their order. -/
def sortExpressions (expressions : List Expression) : List Expression :=
  expressions.mergeSort fun left right => left.name ≤ right.name

def document : Reader Document := do
  let notice ← heading
  let leading ← heading
  let rules ← rule.row1.required .document
  let trailing ← heading
  let expressions ← expression.row1.required .document
  let _ ← (token .eof).required .document
  pure ⟨notice, leading, rules, trailing, sortExpressions expressions⟩

end Reading
end GrammarBook
