import GrammarBook.Text.Count
import Mathlib.Computability.Language

namespace GrammarBook
namespace Regex

/-!
# Regular expressions

The regular expressions that documents are compiled to, as trees, and the languages of their full
matches. Whether a quantifier takes as much or as little as it can makes no difference to a full
match, so a tree does not keep it. Of Unicode only the general category of a character and its being
a space is needed; both are left open.
-/

/-- The general categories of characters that are named. -/
inductive Category where
  | control
  | decimalNumber
  | lowercaseLetter
  | uppercaseLetter
  | other
  deriving DecidableEq

/-- What is to be known of characters. -/
structure Alphabet where
  category : Char → Category
  isSpace : Char → Bool

/-- A member of a class of characters. -/
inductive Member where
  | single (c : Char)
  | range (low high : Char)
  | inCategory (category : Category)
  | space (isSpace : Bool)
  deriving DecidableEq

def Member.accepts (alphabet : Alphabet) : Member → Char → Bool
  | single one, c => one == c
  | range low high, c => low ≤ c && c ≤ high
  | inCategory category, c => alphabet.category c == category
  | space isSpace, c => alphabet.isSpace c == isSpace

/-- A class of characters, or its complement where it is excluded. -/
structure CharClass where
  isExcluded : Bool
  members : List Member
  deriving DecidableEq

def CharClass.accepts (alphabet : Alphabet) (set : CharClass) (c : Char) : Bool :=
  set.isExcluded != set.members.any (·.accepts alphabet c)

/-- How often something may be repeated. -/
structure Counts where
  minimum : Nat
  maximum : Option Nat
  deriving DecidableEq

def Counts.Admits (counts : Counts) (count : Nat) : Prop :=
  counts.minimum ≤ count ∧ ∀ maximum ∈ counts.maximum, count ≤ maximum

/-- A regular expression. -/
inductive Expr where
  | empty
  | one (set : CharClass)
  | sequence (front back : Expr)
  | choice (left right : Expr)
  | repeated (counts : Counts) (inner : Expr)
  deriving DecidableEq

/-- The texts of so many texts of a language in a row. -/
def repetition (counts : Counts) (language : Language Char) : Language Char :=
  {text | ∃ count, counts.Admits count ∧ text ∈ language ^ count}

/-- The texts of one character that has a property. -/
def characters (holds : Char → Bool) : Language Char := {text | ∃ c, text = [c] ∧ holds c = true}

/-- The texts that a regular expression matches as a whole. -/
def Expr.language (alphabet : Alphabet) : Expr → Language Char
  | empty => 1
  | one set => characters (set.accepts alphabet)
  | sequence front back => front.language alphabet * back.language alphabet
  | choice left right => left.language alphabet + right.language alphabet
  | repeated counts inner => repetition counts (inner.language alphabet)

/-- What stands for a single character alone. -/
def Expr.single (c : Char) : Expr := .one ⟨false, [.single c]⟩

def Expr.row (pieces : List Expr) : Expr := pieces.foldr sequence empty

/-! ## Languages -/

/-- The language of pieces in a row. -/
theorem language_row (alphabet : Alphabet) (pieces : List Expr) :
    (Expr.row pieces).language alphabet = (pieces.map (·.language alphabet)).prod := by
  induction pieces with
  | nil => rfl
  | cons piece pieces ih =>
      rw [List.map_cons, List.prod_cons, ← ih]
      rfl

end Regex
end GrammarBook
