import GrammarBook.Text.Casing

namespace GrammarBook
namespace Inflection

/-!
# Inflection of names

Plurals are told by their last letters alone: a plural ends in s, or in es after an s. Irregular
plurals are not known.
-/

/-- The characters of the plural of a name. -/
def pluralChars (name : List Char) : List Char :=
  if name.getLast? = some 's' then name ++ ['e', 's'] else name ++ ['s']

/-- The characters of a name without the ending of a plural. A lone s is no ending. -/
def singularChars (name : List Char) : List Char :=
  if ['s', 'e', 's'].isSuffixOf name then name.take (name.length - 2)
  else if name.getLast? = some 's' ∧ name.length ≠ 1 then name.dropLast
  else name

def plural (name : String) : String := String.ofList (pluralChars name.toList)

/-- The name without the ending of a plural. -/
def singular (name : String) : String := String.ofList (singularChars name.toList)

/-- The name with its first letter in lower case. -/
def lowered (name : String) : String := String.ofList (Text.lowerFirst name.toList)

end Inflection
end GrammarBook
