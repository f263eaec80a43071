import GrammarBook.Document.Basic
import GrammarBook.Text.Count

namespace GrammarBook

/-!
# Plurality

A cardinality is plural unless it allows one occurrence at most in its own terms: a question mark,
exactly one, or from one to one. Counts that cannot be read make it plural.
-/

/-- The text writes the count one. -/
def writesOne (text : String) : Bool := Text.readCount text == some 1

/-- A constraint is plural unless it says one, or from one to one. -/
def Constraint.isPlural (constraint : Constraint) : Bool :=
  match constraint.limit with
  | none => !writesOne constraint.minimum
  | some limit => !(writesOne constraint.minimum && limit.maximum.any writesOne)

/-- A cardinality that allows several occurrences. -/
def Cardinality.isPlural : Cardinality → Bool
  | .quantified mark => mark == "*" || mark == "+"
  | .constrained constraint => constraint.isPlural

end GrammarBook
