import GrammarBook.Token.Kind

namespace GrammarBook
namespace Regex

/-!
# Pieces of regular expressions

A text stands for itself in a regular expression once a backslash precedes every character that has
a meaning there. The intrinsics have classes of their own; where they stand inside a class, those
that are not single classes are written differently.
-/

/-- The characters with a meaning in regular expressions. -/
def metacharacters : List Char :=
  ['\\', '.', '+', '*', '?', '(', ')', '|', '[', ']', '\x7b', '\x7d', '^', '$', '#', '&', '-', '~']

/-- A character that stands for itself. -/
def escapeChar (c : Char) : List Char := if c ∈ metacharacters then ['\\', c] else [c]

def escape (text : String) : String := String.ofList (text.toList.flatMap escapeChar)

/-- The regular expression of an intrinsic, inside a class or on its own. -/
def intrinsic? (name : String) (inClass : Bool) : Option String :=
  if name = "ANY" then some (if inClass then "\\s\\S" else ".")
  else if name = "CONTROL" then some "\\p\x7bCc\x7d"
  else if name = "DIGIT" then some "\\p\x7bNd\x7d"
  else if name = "EOL" then some (if inClass then "\\n" else "\\r?\\n")
  else if name = "LOWER" then some "\\p\x7bLl\x7d"
  else if name = "UPPER" then some "\\p\x7bLu\x7d"
  else none

/-- The start of a group that is not remembered. -/
def groupStart : String := "(?:"

/-- The quantifier of a minimum with the limit that may follow it. -/
def countQuantifier (minimum : String) : Option (Option String) → String
  | none => "\x7b" ++ minimum ++ "\x7d"
  | some none => "\x7b" ++ minimum ++ ",\x7d"
  | some (some maximum) => "\x7b" ++ minimum ++ "," ++ maximum ++ "\x7d"

end Regex
end GrammarBook
