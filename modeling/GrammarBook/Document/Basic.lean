namespace GrammarBook

/-!
# Documents

The tree of a grammar document. Inner nodes follow the notation's own productions. Leaves keep the
source text of their token, quotes and escapes included, so that a document built by hand may hold
leaves that no source has.
-/

/-- The name of an expression or of a rule, told apart by the case of its first letter. -/
inductive Identifier where
  | lower (name : String)
  | upper (name : String)
  deriving DecidableEq, Repr

/-- The name itself, whatever it names. -/
def Identifier.name : Identifier → String
  | lower name | upper name => name

/-- The upper end of a constraint; without a maximum there is none. -/
structure Limit where
  maximum : Option String
  deriving DecidableEq, Repr

/-- A count, or a range of counts where there is a limit. -/
structure Constraint where
  minimum : String
  limit : Option Limit
  deriving DecidableEq, Repr

/-- How often something occurs. -/
inductive Cardinality where
  | quantified (mark : String)
  | constrained (constraint : Constraint)
  deriving DecidableEq, Repr

/-- A use of a rule or an expression. -/
structure Reference where
  identifier : Identifier
  cardinality : Option Cardinality
  deriving DecidableEq, Repr

/-- A piece of an inline definition. -/
inductive Term where
  | reference (reference : Reference)
  | bracket (terms : List Term) (cardinality : Option Cardinality)
  | literal (text : String)
  deriving Repr

/-- One choice of a multiline definition. -/
structure Line where
  identifier : Identifier
  note : Option String
  deriving DecidableEq, Repr

/-- What a rule stands for: one of several lines, or terms in a row. -/
inductive Definition where
  | multiline (lines : List Line)
  | inlined (terms : List Term) (note : Option String)
  deriving Repr

/-- A named definition. -/
structure Rule where
  name : String
  definition : Definition
  deriving Repr

/-- A glyph, or a range of glyphs where there is an extent. -/
structure Bounded where
  glyph : String
  extent : Option String
  deriving DecidableEq, Repr

/-- A member of a filter. -/
inductive Character where
  | bounded (bounded : Bounded)
  | intrinsic (name : String)
  deriving DecidableEq, Repr

/-- A set of characters, or its complement where it is excluded. -/
structure Filter where
  excluded : Option String
  characters : List Character
  deriving DecidableEq, Repr

/-- The filter stands for the characters it does not list. -/
def Filter.isExcluded (filter : Filter) : Bool := filter.excluded.isSome

/-- The smallest piece of a pattern. -/
inductive Atom where
  | bounded (bounded : Bounded)
  | intrinsic (name : String)
  | literal (text : String)
  | lowercase (name : String)
  deriving DecidableEq, Repr

mutual

/-- A choice between sequences. -/
inductive Pattern where
  | mk (first : Sequence) (alternatives : List Sequence)
  deriving Repr

/-- Repetitions one after another. -/
inductive Sequence where
  | mk (repetitions : List Repetition)
  deriving Repr

/-- An element with the number of its occurrences. -/
inductive Repetition where
  | mk (element : Element) (cardinality : Option Cardinality)
  deriving Repr

/-- What can be repeated. -/
inductive Element where
  | group (pattern : Pattern)
  | filter (filter : Filter)
  | atom (atom : Atom)
  deriving Repr

end

/-- The pattern's own sequence. -/
def Pattern.first : Pattern → Sequence
  | mk first _ => first

/-- The sequences that may stand in its place. -/
def Pattern.alternatives : Pattern → List Sequence
  | mk _ alternatives => alternatives

def Sequence.repetitions : Sequence → List Repetition
  | mk repetitions => repetitions

def Repetition.element : Repetition → Element
  | mk element _ => element

def Repetition.cardinality : Repetition → Option Cardinality
  | mk _ cardinality => cardinality

/-- A named pattern. -/
structure Expression where
  name : String
  pattern : Pattern
  note : Option String
  deriving Repr

/-- A whole document. -/
structure Document where
  notice : String
  leading : String
  rules : List Rule
  trailing : String
  expressions : List Expression
  deriving Repr

end GrammarBook
