import GrammarBook.Document.Basic
import GrammarBook.Proofs.Regex.Quantifier
import GrammarBook.Token.Value

namespace GrammarBook

open Regex

/-!
# What patterns denote

The language of a pattern, as the notation has it: a cardinality says how often the whole element
before it is repeated. What the names in a pattern denote is left open. In a document the names of
expressions denote what their patterns do, which settles it where expressions do not go around in
circles.
-/

/-! ## Characters -/

/-- The category that an intrinsic stands for, if it stands for one. -/
def intrinsicCategory? (name : String) : Option Category :=
  if name = "CONTROL" then some .control
  else if name = "DIGIT" then some .decimalNumber
  else if name = "LOWER" then some .lowercaseLetter
  else if name = "UPPER" then some .uppercaseLetter
  else none

/-- The character is the glyph, or lies in the range. -/
def Bounded.accepts (bounded : Bounded) (c : Char) : Bool :=
  match Token.glyphCharacter? bounded.glyph, bounded.extent with
  | some only, none => only == c
  | some low, some last => (Token.glyphCharacter? last).any fun high => low ≤ c && c ≤ high
  | none, _ => false

section Alphabet

variable (alphabet : Alphabet)

/-- The character belongs to the category that the intrinsic stands for. -/
def categoryAccepts (name : String) (c : Char) : Bool :=
  (intrinsicCategory? name).any fun category => alphabet.category c == category

/-- The member of a filter stands for the character. -/
def Character.accepts : Character → Char → Bool
  | bounded range, c => range.accepts c
  | intrinsic name, c =>
    if name = "ANY" then true
    else if name = "EOL" then c == '\n'
    else categoryAccepts alphabet name c

def Filter.accepts (filter : Filter) (c : Char) : Bool :=
  filter.isExcluded != filter.characters.any (·.accepts alphabet c)

/-- What an intrinsic denotes outside of a filter. -/
def intrinsicLanguage (name : String) : Language Char :=
  if name = "ANY" then characters (· != '\n')
  else if name = "EOL" then lineEnds
  else characters (categoryAccepts alphabet name)

/-! ## Counts -/

/-- The counts that a constraint allows. -/
def Constraint.counts (constraint : Constraint) : Counts where
  minimum := Text.decimalValue constraint.minimum.toList
  maximum :=
    match constraint.limit with
    | none => some (Text.decimalValue constraint.minimum.toList)
    | some limit => limit.maximum.map fun maximum => Text.decimalValue maximum.toList

def Cardinality.counts : Cardinality → Counts
  | quantified mark =>
    if mark = "?" then ⟨0, some 1⟩ else if mark = "*" then ⟨0, none⟩ else ⟨1, none⟩
  | constrained constraint => constraint.counts

/-! ## Patterns -/

variable (meaning : String → Language Char)

/-- What an atom denotes. -/
def Atom.language : Atom → Language Char
  | bounded range => characters range.accepts
  | intrinsic name => intrinsicLanguage alphabet name
  | literal text => {(Token.literalText text).toList}
  | lowercase name => meaning name

mutual

/-- What a pattern denotes. -/
def Pattern.language : Pattern → Language Char
  | .mk first alternatives => first.language + Sequence.choiceLanguage alternatives

def Sequence.choiceLanguage : List Sequence → Language Char
  | [] => 0
  | sequence :: others => sequence.language + Sequence.choiceLanguage others

def Sequence.language : Sequence → Language Char
  | .mk repetitions => Repetition.rowLanguage repetitions

def Repetition.rowLanguage : List Repetition → Language Char
  | [] => 1
  | repetition :: others => repetition.language * Repetition.rowLanguage others

def Repetition.language : Repetition → Language Char
  | .mk element none => element.language
  | .mk element (some cardinality) => repetition cardinality.counts element.language

def Element.language : Element → Language Char
  | .group pattern => pattern.language
  | .filter filter => characters (filter.accepts alphabet)
  | .atom atom => atom.language alphabet meaning

end

end Alphabet

/-! ## Names and repetitions in a pattern -/

def Atom.names : Atom → List String
  | lowercase name => [name]
  | _ => []

mutual

/-- The names that a pattern refers to. -/
def Pattern.names : Pattern → List String
  | .mk first alternatives => first.names ++ Sequence.listNames alternatives

def Sequence.listNames : List Sequence → List String
  | [] => []
  | sequence :: others => sequence.names ++ Sequence.listNames others

def Sequence.names : Sequence → List String
  | .mk repetitions => Repetition.listNames repetitions

def Repetition.listNames : List Repetition → List String
  | [] => []
  | repetition :: others => repetition.names ++ Repetition.listNames others

def Repetition.names : Repetition → List String
  | .mk element _ => element.names

def Element.names : Element → List String
  | .group pattern => pattern.names
  | .filter _ => []
  | .atom atom => atom.names

end

mutual

/-- The repetitions in a pattern, at any depth. -/
def Pattern.contained : Pattern → List Repetition
  | .mk first alternatives => first.contained ++ Sequence.listContained alternatives

def Sequence.listContained : List Sequence → List Repetition
  | [] => []
  | sequence :: others => sequence.contained ++ Sequence.listContained others

def Sequence.contained : Sequence → List Repetition
  | .mk repetitions => Repetition.listContained repetitions

def Repetition.listContained : List Repetition → List Repetition
  | [] => []
  | repetition :: others => repetition.contained ++ Repetition.listContained others

def Repetition.contained : Repetition → List Repetition
  | .mk element cardinality => .mk element cardinality :: element.contained

def Element.contained : Element → List Repetition
  | .group pattern => pattern.contained
  | .filter _ | .atom _ => []

end

/-! ## Meanings -/

section Congr

variable {alphabet : Alphabet} {meaning other : String → Language Char}

theorem Atom.language_congr {atom : Atom} (same : ∀ name ∈ atom.names, meaning name = other name) :
    atom.language alphabet meaning = atom.language alphabet other := by
  cases atom with
  | bounded | intrinsic | literal => rfl
  | lowercase name => exact same name (List.mem_singleton_self name)

mutual

/-- What a pattern denotes depends on the names in it only. -/
theorem Pattern.language_congr : (pattern : Pattern) →
    (∀ name ∈ pattern.names, meaning name = other name) →
    pattern.language alphabet meaning = pattern.language alphabet other
  | .mk first alternatives, same => by
    obtain ⟨atFirst, atOthers⟩ := List.forall_mem_append.mp same
    rw [Pattern.language, Pattern.language, Sequence.language_congr first atFirst,
      Sequence.choiceLanguage_congr alternatives atOthers]

theorem Sequence.choiceLanguage_congr : (sequences : List Sequence) →
    (∀ name ∈ Sequence.listNames sequences, meaning name = other name) →
    Sequence.choiceLanguage alphabet meaning sequences =
      Sequence.choiceLanguage alphabet other sequences
  | [], _ => rfl
  | sequence :: others, same => by
    obtain ⟨atFirst, atOthers⟩ := List.forall_mem_append.mp same
    rw [Sequence.choiceLanguage, Sequence.choiceLanguage, Sequence.language_congr sequence atFirst,
      Sequence.choiceLanguage_congr others atOthers]

theorem Sequence.language_congr : (sequence : Sequence) →
    (∀ name ∈ sequence.names, meaning name = other name) →
    sequence.language alphabet meaning = sequence.language alphabet other
  | .mk repetitions, same => Repetition.rowLanguage_congr repetitions same

theorem Repetition.rowLanguage_congr : (repetitions : List Repetition) →
    (∀ name ∈ Repetition.listNames repetitions, meaning name = other name) →
    Repetition.rowLanguage alphabet meaning repetitions =
      Repetition.rowLanguage alphabet other repetitions
  | [], _ => rfl
  | repetition :: others, same => by
    obtain ⟨atFirst, atOthers⟩ := List.forall_mem_append.mp same
    rw [Repetition.rowLanguage, Repetition.rowLanguage,
      Repetition.language_congr repetition atFirst, Repetition.rowLanguage_congr others atOthers]

theorem Repetition.language_congr : (repetition : Repetition) →
    (∀ name ∈ repetition.names, meaning name = other name) →
    repetition.language alphabet meaning = repetition.language alphabet other
  | .mk element none, same => Element.language_congr element same
  | .mk element (some cardinality), same =>
    congrArg (repetition cardinality.counts) (Element.language_congr element same)

theorem Element.language_congr : (element : Element) →
    (∀ name ∈ element.names, meaning name = other name) →
    element.language alphabet meaning = element.language alphabet other
  | .group pattern, same => Pattern.language_congr pattern same
  | .filter _, _ => rfl
  | .atom _, same => Atom.language_congr same

end

end Congr

/-! ## Documents -/

/-- The names of expressions denote what their patterns do. -/
def Document.IsMeaning (document : Document) (alphabet : Alphabet)
    (meaning : String → Language Char) : Prop :=
  ∀ expression ∈ document.expressions,
    meaning expression.name = expression.pattern.language alphabet meaning

/-- What an expression is made of: its own repetitions, and those of the expressions it refers to. -/
inductive Document.IsPart (document : Document) : Expression → Repetition → Prop
  | own {expression : Expression} {repetition : Repetition}
      (contains : repetition ∈ expression.pattern.contained) :
      document.IsPart expression repetition
  | referred {expression other : Expression} {repetition : Repetition}
      (refers : other.name ∈ expression.pattern.names) (member : other ∈ document.expressions)
      (isPart : document.IsPart other repetition) : document.IsPart expression repetition

/-- What an expression of a document is made of stands in some expression of it. -/
theorem Document.IsPart.exists_contained {document : Document} {expression : Expression}
    {repetition : Repetition} (isPart : document.IsPart expression repetition)
    (member : expression ∈ document.expressions) :
    ∃ other ∈ document.expressions, repetition ∈ other.pattern.contained := by
  induction isPart with
  | own contains => exact ⟨_, member, contains⟩
  | referred _ known _ ih => exact ih known

/-! ## Torn elements -/

/-- What the element stands for is several pieces in a row, with nothing around them: the characters
of a literal, or the two that may end a line. -/
def Element.isLoose : Element → Bool
  | .atom (.literal text) => 1 < (Token.literalText text).toList.length
  | .atom (.intrinsic name) => name == "EOL"
  | _ => false

/-- The repetition has a cardinality other than once, but its element is several pieces in a row, so
that the last one is torn off them. -/
def Repetition.IsTorn : Repetition → Prop
  | .mk element cardinality =>
    element.isLoose = true ∧ ∃ given, cardinality = some given ∧ given.counts ≠ .once

/-- Nothing is torn in what the expression is made of. -/
def Document.IsWhole (document : Document) (expression : Expression) : Prop :=
  ∀ repetition, document.IsPart expression repetition → ¬ repetition.IsTorn

theorem Document.IsWhole.referred {document : Document} {expression other : Expression}
    (whole : document.IsWhole expression) (refers : other.name ∈ expression.pattern.names)
    (member : other ∈ document.expressions) : document.IsWhole other :=
  fun repetition isPart => whole repetition (.referred refers member isPart)

end GrammarBook
