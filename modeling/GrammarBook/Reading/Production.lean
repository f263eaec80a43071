namespace GrammarBook

/-!
# The productions of the notation

The notation described in itself. A reader that finds an unexpected token quotes the production it
was reading.
-/

/-- The productions of the notation. -/
inductive Production where
  | document
  | notice
  | rule
  | definition
  | multiline
  | line
  | identifier
  | inlined
  | term
  | reference
  | bracket
  | expression
  | pattern
  | alternative
  | sequence
  | repetition
  | element
  | group
  | filter
  | character
  | bounded
  | extent
  | text
  | cardinality
  | constrained
  | limit
  deriving DecidableEq, Repr

namespace Production

/-- All productions, each before those it uses. -/
def all : List Production :=
  [document, notice, rule, definition, multiline, line, identifier, inlined, term, reference,
    bracket, expression, pattern, alternative, sequence, repetition, element, group, filter,
    character, bounded, extent, text, cardinality, constrained, limit]

def name : Production → String
  | document => "Syntax"
  | notice => "Notice"
  | rule => "Rule"
  | definition => "Definition"
  | multiline => "Multiline"
  | line => "Line"
  | identifier => "Identifier"
  | inlined => "Inline"
  | term => "Term"
  | reference => "Reference"
  | bracket => "Bracket"
  | expression => "Expression"
  | pattern => "Pattern"
  | alternative => "Alternative"
  | sequence => "Sequence"
  | repetition => "Repetition"
  | element => "Element"
  | group => "Group"
  | filter => "Filter"
  | character => "Character"
  | bounded => "Bounded"
  | extent => "Extent"
  | text => "Text"
  | cardinality => "Cardinality"
  | constrained => "Constrained"
  | limit => "Limit"

/-- The right-hand side of a production, as it follows the colon. -/
def body : Production → String
  | document => " Notice comment Rule+ comment Expression+ EOF"
  | notice => " comment"
  | rule => " uppercase \":\" Definition newline+"
  | definition => "\n  - Multiline\n  - Inline"
  | multiline => " Line+"
  | line => " newline \"-\" Identifier note?"
  | identifier => "\n  - lowercase\n  - uppercase"
  | inlined => " Term+ note?"
  | term => "\n  - Reference\n  - Bracket\n  - literal"
  | reference => " Identifier Cardinality?"
  | bracket => " \"(\" Term+ \")\" Cardinality?"
  | expression => " lowercase \":\" Pattern note? newline+"
  | pattern => " Sequence Alternative*"
  | alternative => " \"|\" Sequence"
  | sequence => " Repetition+"
  | repetition => " Element Cardinality?"
  | element => "\n  - Group\n  - Filter\n  - Text"
  | group => " \"(\" Pattern \")\""
  | filter => " excluded? \"[\" Character+ \"]\""
  | character => "\n  - Bounded\n  - intrinsic"
  | bounded => " glyph Extent?"
  | extent => " \"..\" glyph"
  | text => "\n  - Bounded\n  - intrinsic\n  - literal\n  - lowercase"
  | cardinality => "\n  - Constrained\n  - quantified"
  | constrained => " \"\x7b\" number Limit? \"\x7d\""
  | limit => " \"..\" number?"

/-- The definition of a production in the notation. -/
def definitionText (production : Production) : String := production.name ++ ":" ++ production.body

/-- The definition of the production with the given name; empty where there is none. -/
def definitionOf (name : String) : String :=
  match all.find? (·.name == name) with
  | some production => production.definitionText
  | none => ""

theorem definitionOf_name (production : Production) :
    definitionOf production.name = production.definitionText := by
  cases production <;> rfl

end Production
end GrammarBook
