namespace GrammarBook
namespace Token

/-!
# What glyphs and literals stand for

A glyph quotes one character as it is. A literal quotes a text in which a backslash makes the next
character stand for itself, or for a newline, a carriage return or a tab.
-/

/-- The character that a glyph quotes. -/
def glyphCharacter? (glyph : String) : Option Char :=
  match glyph.toList with
  | ['\'', c, '\''] => some c
  | _ => none

/-- The text without the quotes around it; only a pair of quotes is taken off. -/
def dropQuotes (literal : List Char) : List Char :=
  match literal with
  | '"' :: rest => if rest.getLast? = some '"' then rest.dropLast else literal
  | _ => literal

/-- The character that an escaped character stands for. -/
def unescape (c : Char) : Char :=
  if c = 'n' then '\n' else if c = 'r' then '\r' else if c = 't' then '\t' else c

/-- Replaces escapes by what they stand for; a final backslash stands for itself. -/
def resolveEscapes : List Char → List Char
  | [] => []
  | '\\' :: c :: rest => unescape c :: resolveEscapes rest
  | c :: rest => c :: resolveEscapes rest

def literalText (literal : String) : String :=
  String.ofList (resolveEscapes (dropQuotes literal.toList))

end Token
end GrammarBook
