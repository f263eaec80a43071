import GrammarBook.Names.NameTable

namespace GrammarBook

/-!
# Fragments and their resolution

A pattern is first compiled into fragments: pieces of a regular expression, and references that
still stand for other expressions. Resolving replaces every reference by the regular expression it
stands for. That is possible when all references are defined and none leads back to where it stands.
-/

/-- A piece of a regular expression, or a reference to an expression. -/
inductive Fragment where
  | text (text : String)
  | reference (name : String)
  deriving DecidableEq, Repr

def Fragment.target? : Fragment → Option String
  | text _ => none
  | reference name => some name

/-- Expressions by name, as fragments. -/
abbrev FragmentTable := NameTable (List Fragment)

namespace FragmentTable

/-- The names that an expression refers to, in their order. -/
def targets (fragments : List Fragment) : List String := fragments.filterMap Fragment.target?

/-- The first name that is referred to and not in the table. -/
def firstUndefined? (table : FragmentTable) : Option String :=
  (table.entries.flatMap fun entry => targets entry.2).find? fun name => !table.contains name

end FragmentTable
end GrammarBook
