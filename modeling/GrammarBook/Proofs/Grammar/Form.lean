import GrammarBook.Document.Basic
import GrammarBook.Reading.Production
import GrammarBook.Token.Basic

namespace GrammarBook
namespace Grammar

/-!
# The grammar as data

A production is quoted as a text. Here its right-hand side is data, which writes that very text, and
a derivation is a tree of tokens built after it. A derivation keeps every token it stands for, so
that it can be told apart from any other derivation of the same tokens; the document is only what
remains of it when the tokens are forgotten.

Two things are not quoted. Newlines may follow the three comments of a document. And a newline with
a dash behind it is one symbol, since a newline alone does not tell whether a line follows.
-/

/-! ## Right-hand sides as they are quoted -/

/-- What a right-hand side names. -/
inductive Symbol where
  | token (kind : Kind)
  | mark (text : String)
  | part (production : Production)
  deriving DecidableEq

/-- How often a symbol stands in a row. -/
inductive Quantity where
  | once
  | optional
  | many
  | several
  deriving DecidableEq

/-- A symbol with its quantity. -/
structure Item where
  symbol : Symbol
  quantity : Quantity := .once
  deriving DecidableEq

/-- A right-hand side: one of several symbols, or items in a row. -/
inductive Body where
  | choice (symbols : List Symbol)
  | row (items : List Item)
  deriving DecidableEq

/-- How a symbol is quoted. Tokens are named as expressions are, except the end of the source. -/
def Symbol.text : Symbol → String
  | .token .eof => "EOF"
  | .token kind => kind.name
  | .mark text => "\"" ++ text ++ "\""
  | .part production => production.name

def Quantity.text : Quantity → String
  | once => ""
  | optional => "?"
  | many => "*"
  | several => "+"

def Body.text : Body → String
  | choice symbols => String.join (symbols.map fun symbol => "\n  - " ++ symbol.text)
  | row items =>
    String.join (items.map fun item => " " ++ item.symbol.text ++ item.quantity.text)

/-- The items of a line behind its dash. -/
def lineItems : List Item := [⟨.part .identifier, .once⟩, ⟨.token .note, .optional⟩]

/-- The items of a document. -/
def documentItems : List Item :=
  [⟨.part .notice, .once⟩, ⟨.token .comment, .once⟩, ⟨.part .rule, .several⟩,
    ⟨.token .comment, .once⟩, ⟨.part .expression, .several⟩, ⟨.token .eof, .once⟩]

/-- The right-hand side of a production. -/
def quoted : Production → Body
  | .document => .row documentItems
  | .notice => .row [⟨.token .comment, .once⟩]
  | .rule =>
    .row [⟨.token .uppercase, .once⟩, ⟨.mark ":", .once⟩, ⟨.part .definition, .once⟩,
      ⟨.token .newline, .several⟩]
  | .definition => .choice [.part .multiline, .part .inlined]
  | .multiline => .row [⟨.part .line, .several⟩]
  | .line => .row (⟨.token .newline, .once⟩ :: ⟨.mark "-", .once⟩ :: lineItems)
  | .identifier => .choice [.token .lowercase, .token .uppercase]
  | .inlined => .row [⟨.part .term, .several⟩, ⟨.token .note, .optional⟩]
  | .term => .choice [.part .reference, .part .bracket, .token .literal]
  | .reference => .row [⟨.part .identifier, .once⟩, ⟨.part .cardinality, .optional⟩]
  | .bracket =>
    .row [⟨.mark "(", .once⟩, ⟨.part .term, .several⟩, ⟨.mark ")", .once⟩,
      ⟨.part .cardinality, .optional⟩]
  | .expression =>
    .row [⟨.token .lowercase, .once⟩, ⟨.mark ":", .once⟩, ⟨.part .pattern, .once⟩,
      ⟨.token .note, .optional⟩, ⟨.token .newline, .several⟩]
  | .pattern => .row [⟨.part .sequence, .once⟩, ⟨.part .alternative, .many⟩]
  | .alternative => .row [⟨.mark "|", .once⟩, ⟨.part .sequence, .once⟩]
  | .sequence => .row [⟨.part .repetition, .several⟩]
  | .repetition => .row [⟨.part .element, .once⟩, ⟨.part .cardinality, .optional⟩]
  | .element => .choice [.part .group, .part .filter, .part .text]
  | .group => .row [⟨.mark "(", .once⟩, ⟨.part .pattern, .once⟩, ⟨.mark ")", .once⟩]
  | .filter =>
    .row [⟨.token .excluded, .optional⟩, ⟨.mark "[", .once⟩, ⟨.part .character, .several⟩,
      ⟨.mark "]", .once⟩]
  | .character => .choice [.part .bounded, .token .intrinsic]
  | .bounded => .row [⟨.token .glyph, .once⟩, ⟨.part .extent, .optional⟩]
  | .extent => .row [⟨.mark "..", .once⟩, ⟨.token .glyph, .once⟩]
  | .text => .choice [.part .bounded, .token .intrinsic, .token .literal, .token .lowercase]
  | .cardinality => .choice [.part .constrained, .token .quantified]
  | .constrained =>
    .row [⟨.mark "\x7b", .once⟩, ⟨.token .number, .once⟩, ⟨.part .limit, .optional⟩,
      ⟨.mark "\x7d", .once⟩]
  | .limit => .row [⟨.mark "..", .once⟩, ⟨.token .number, .optional⟩]

/-- The data is what the productions quote. -/
theorem quoted_text (production : Production) : (quoted production).text = production.body := by
  cases production <;> rfl

/-! ## Forms -/

/-- What tokens can be derived from. -/
inductive Form where
  | token (kind : Kind)
  | mark (text : String)
  | bullet
  | part (production : Production)
  | empty
  | next (first rest : Form)
  | either (left right : Form)
  | optional (form : Form)
  | many (form : Form)
  | several (form : Form)
  deriving DecidableEq

/-- The form of a symbol. -/
def Symbol.form : Symbol → Form
  | token kind => .token kind
  | mark text => .mark text
  | part production => .part production

def Item.form (item : Item) : Form :=
  match item.quantity with
  | .once => item.symbol.form
  | .optional => .optional item.symbol.form
  | .many => .many item.symbol.form
  | .several => .several item.symbol.form

def rowForm : List Item → Form
  | [] => .empty
  | item :: items => .next item.form (rowForm items)

/-- The form of a choice; of no symbols there is none. -/
def choiceForm : List Symbol → Form
  | [] => .empty
  | [symbol] => symbol.form
  | symbol :: symbols => .either symbol.form (choiceForm symbols)

/-- The form of a right-hand side. -/
def Body.form : Body → Form
  | choice symbols => choiceForm symbols
  | row items => rowForm items

/-- Newlines may follow a comment of a document, its notice included. -/
def spaced (items : List Item) : List Item :=
  items.flatMap fun item =>
    if item.symbol = .token .comment ∨ item.symbol = .part .notice then
      [item, ⟨.token .newline, .many⟩]
    else [item]

/-- The form that a production is derived by. -/
def form : Production → Form
  | .document => rowForm (spaced documentItems)
  | .line => .next .bullet (rowForm lineItems)
  | production => (quoted production).form

/-! ## What productions stand for -/

/-- What a phrase of a production stands for in a document. -/
def Meaning : Production → Type
  | .document => Document
  | .notice | .extent => String
  | .rule => Rule
  | .definition | .inlined => Definition
  | .multiline => List Line
  | .line => Line
  | .identifier => Identifier
  | .term | .bracket => Term
  | .reference => Reference
  | .expression => Expression
  | .pattern | .group => Pattern
  | .alternative | .sequence => Sequence
  | .repetition => Repetition
  | .element => Element
  | .filter => Filter
  | .character => Character
  | .bounded => Bounded
  | .text => Atom
  | .cardinality => Cardinality
  | .constrained => Constraint
  | .limit => Limit

/-- What a phrase of a form stands for, part by part. A token stands for its text. -/
def Form.Meaning : Form → Type
  | token _ | mark _ => String
  | bullet | empty => Unit
  | part production => Grammar.Meaning production
  | next first rest => first.Meaning × rest.Meaning
  | either left right => left.Meaning ⊕ right.Meaning
  | optional form => Option form.Meaning
  | many form | several form => List form.Meaning

/-- The node that a production makes of its parts. -/
def build : (production : Production) → (form production).Meaning → Meaning production
  | .document, (notice, _, leading, _, rules, trailing, _, expressions, _) =>
    ⟨notice, leading, rules, trailing, expressions⟩
  | .notice, (comment, _) => comment
  | .rule, (name, _, definition, _) => ⟨name, definition⟩
  | .definition, .inl lines => .multiline lines
  | .definition, .inr definition => definition
  | .multiline, (lines, _) => lines
  | .line, (_, identifier, note, _) => ⟨identifier, note⟩
  | .identifier, .inl name => .lower name
  | .identifier, .inr name => .upper name
  | .inlined, (terms, note, _) => .inlined terms note
  | .term, .inl reference => .reference reference
  | .term, .inr (.inl term) => term
  | .term, .inr (.inr text) => .literal text
  | .reference, (identifier, cardinality, _) => ⟨identifier, cardinality⟩
  | .bracket, (_, terms, _, cardinality, _) => .bracket terms cardinality
  | .expression, (name, _, pattern, note, _) => ⟨name, pattern, note⟩
  | .pattern, (first, alternatives, _) => .mk first alternatives
  | .alternative, (_, sequence, _) => sequence
  | .sequence, (repetitions, _) => .mk repetitions
  | .repetition, (element, cardinality, _) => .mk element cardinality
  | .element, .inl pattern => .group pattern
  | .element, .inr (.inl filter) => .filter filter
  | .element, .inr (.inr atom) => .atom atom
  | .group, (_, pattern, _) => pattern
  | .filter, (excluded, _, characters, _) => ⟨excluded, characters⟩
  | .character, .inl bounded => .bounded bounded
  | .character, .inr name => .intrinsic name
  | .bounded, (glyph, extent, _) => ⟨glyph, extent⟩
  | .extent, (_, glyph, _) => glyph
  | .text, .inl bounded => .bounded bounded
  | .text, .inr (.inl name) => .intrinsic name
  | .text, .inr (.inr (.inl text)) => .literal text
  | .text, .inr (.inr (.inr name)) => .lowercase name
  | .cardinality, .inl constraint => .constrained constraint
  | .cardinality, .inr mark => .quantified mark
  | .constrained, (_, minimum, limit, _) => ⟨minimum, limit⟩
  | .limit, (_, maximum, _) => ⟨maximum⟩

/-! ## Derivations -/

/-- A token is the delimiter with the given text. -/
def IsMark (text : String) (token : Token) : Prop :=
  token.kind = .delimiter ∧ token.text = text

instance (text : String) (token : Token) : Decidable (IsMark text token) :=
  inferInstanceAs (Decidable (_ ∧ _))

/-- A derivation of a form: a tree whose leaves are tokens. -/
inductive Derivation : Form → Type where
  | token {kind : Kind} (token : Token) (fits : token.kind = kind) : Derivation (.token kind)
  | mark {text : String} (token : Token) (fits : IsMark text token) : Derivation (.mark text)
  | bullet (newline dash : Token) (ends : newline.kind = .newline) (fits : IsMark "-" dash) :
      Derivation .bullet
  | part {production : Production} (inner : Derivation (form production)) :
      Derivation (.part production)
  | empty : Derivation .empty
  | next {first rest : Form} (front : Derivation first) (back : Derivation rest) :
      Derivation (.next first rest)
  | left {left right : Form} (inner : Derivation left) : Derivation (.either left right)
  | right {left right : Form} (inner : Derivation right) : Derivation (.either left right)
  | absent {form : Form} : Derivation (.optional form)
  | present {form : Form} (inner : Derivation form) : Derivation (.optional form)
  | done {form : Form} : Derivation (.many form)
  | more {form : Form} (first : Derivation form) (others : Derivation (.many form)) :
      Derivation (.many form)
  | several {form : Form} (first : Derivation form) (others : Derivation (.many form)) :
      Derivation (.several form)

namespace Derivation

def tokens {form : Form} : Derivation form → List Token
  | token leaf _ | mark leaf _ => [leaf]
  | bullet newline dash _ _ => [newline, dash]
  | part inner | left inner | right inner | present inner => inner.tokens
  | empty | absent | done => []
  | next front back => front.tokens ++ back.tokens
  | more first others | several first others => first.tokens ++ others.tokens

/-- What the derivation stands for. -/
def meaning {form : Form} : Derivation form → form.Meaning
  | token leaf _ | mark leaf _ => leaf.text
  | bullet .. | empty => ()
  | part inner => build _ inner.meaning
  | next front back => (front.meaning, back.meaning)
  | left inner => .inl inner.meaning
  | right inner => .inr inner.meaning
  | absent => none
  | present inner => some inner.meaning
  | done => []
  | more first others | several first others => first.meaning :: others.meaning

/-- A newline and a dash are the same tokens as one symbol and as the two that are quoted. -/
theorem exists_bullet_iff (tokens : List Token) :
    (∃ derivation : Derivation .bullet, derivation.tokens = tokens) ↔
      ∃ derivation : Derivation (rowForm [⟨.token .newline, .once⟩, ⟨.mark "-", .once⟩]),
        derivation.tokens = tokens := by
  constructor
  · rintro ⟨derivation, rfl⟩
    match derivation with
    | bullet newline dash ends fits =>
      exact ⟨next (token newline ends) (next (mark dash fits) empty), rfl⟩
  · rintro ⟨derivation, rfl⟩
    match derivation with
    | next (token newline ends) (next (mark dash fits) empty) =>
      exact ⟨bullet newline dash ends fits, rfl⟩

end Derivation
end Grammar
end GrammarBook
