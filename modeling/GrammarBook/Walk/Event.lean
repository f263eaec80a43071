import GrammarBook.Document.Basic
import GrammarBook.Reading.Production
import GrammarBook.Token.Kind

namespace GrammarBook
namespace Walk

/-!
# Events of a walk

A walk through a document meets its tokens in their order and enters and leaves the nodes around
them. Members of a list come with their rank: how many of the list's members have been met, and how
many there are.
-/

/-- The rank of a member in its list, counted from one. -/
structure Rank where
  index : Nat
  size : Nat
  deriving DecidableEq, Repr

/-- A node of a document, one constructor for each production. -/
inductive Node where
  | document (document : Document)
  | notice (comment : String)
  | rule (rule : Rule)
  | definition (definition : Definition)
  | multiline (lines : List Line)
  | line (line : Line)
  | identifier (identifier : Identifier)
  | inlined (terms : List Term) (note : Option String)
  | term (term : Term)
  | reference (reference : Reference)
  | bracket (terms : List Term) (cardinality : Option Cardinality)
  | expression (expression : Expression)
  | pattern (pattern : Pattern)
  | alternative (sequence : Sequence)
  | sequence (sequence : Sequence)
  | repetition (repetition : Repetition)
  | element (element : Element)
  | group (pattern : Pattern)
  | filter (filter : Filter)
  | character (character : Character)
  | bounded (bounded : Bounded)
  | extent (glyph : String)
  | text (atom : Atom)
  | cardinality (cardinality : Cardinality)
  | constrained (constraint : Constraint)
  | limit (limit : Limit)
  deriving Repr

/-- The production that a node was built by. -/
def Node.production : Node → Production
  | document _ => .document
  | notice _ => .notice
  | rule _ => .rule
  | definition _ => .definition
  | multiline _ => .multiline
  | line _ => .line
  | identifier _ => .identifier
  | inlined .. => .inlined
  | term _ => .term
  | reference _ => .reference
  | bracket .. => .bracket
  | expression _ => .expression
  | pattern _ => .pattern
  | alternative _ => .alternative
  | sequence _ => .sequence
  | repetition _ => .repetition
  | element _ => .element
  | group _ => .group
  | filter _ => .filter
  | character _ => .character
  | bounded _ => .bounded
  | extent _ => .extent
  | text _ => .text
  | cardinality _ => .cardinality
  | constrained _ => .constrained
  | limit _ => .limit

/-- What a walk meets. -/
inductive Event where
  | leaf (kind : Kind) (text : String)
  | enter (node : Node) (rank : Option Rank)
  | leave (node : Node) (rank : Option Rank)
  deriving Repr

/-- A delimiter, as the document writes it. -/
def mark (text : String) : Event := .leaf .delimiter text

end Walk
end GrammarBook
