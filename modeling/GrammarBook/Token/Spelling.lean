import GrammarBook.Token.Kind

namespace GrammarBook
namespace Kind

/-!
# Spelling of tokens

`accepts` says which whole texts are tokens of a kind. It judges a text from both ends, as a
reader would: what it starts with, what it ends with, and what may stand between.
-/

/-- A character that is not an ASCII control. -/
def isVisible (c : Char) : Bool := 0x20 ≤ c.toNat && c.toNat ≠ 0x7F

/-- An ASCII capital. -/
def isCapital (c : Char) : Bool := 'A' ≤ c && c ≤ 'Z'

/-- An ASCII small letter. -/
def isSmall (c : Char) : Bool := 'a' ≤ c && c ≤ 'z'

/-- An ASCII digit. -/
def isNumeral (c : Char) : Bool := '0' ≤ c && c ≤ '9'

/-- An ASCII letter or digit. -/
def isWordChar (c : Char) : Bool := isCapital c || isSmall c || isNumeral c

/-- A character that could continue a name, the final underscore included. -/
def continuesName (c : Char) : Bool := isWordChar c || c == '_'

/-- A blank inside a line. -/
def isBlank (c : Char) : Bool := c == ' ' || c == '\t'

/-- The delimiters: the range dots and nine single characters. -/
def delimiterTexts : List (List Char) :=
  [['.', '.'], [':'], ['|'], ['('], [')'], ['['], [']'], ['\x7b'], ['\x7d'], ['-']]

def intrinsicTexts : List (List Char) := intrinsicNames.map String.toList

/-- The text after a comment's opening line ends the comment: it is the closing mark alone, or
its last line is. -/
def closesComment (body : List Char) : Bool :=
  body == ['<', '!'] || ['\n', '<', '!'].isSuffixOf body

/-- Escaped and plain characters between the quotes of a literal, up to the closing quote. -/
def isLiteralBody : List Char → Bool
  | [] => false
  | '\\' :: c :: rest => isVisible c && isLiteralBody rest
  | c :: rest =>
    if c = '"' then rest.isEmpty else isVisible c && c != '\\' && isLiteralBody rest

/-- The part of a name after its first letter: letters and digits, then at most one underscore. -/
def isNameTail : List Char → Bool
  | [] => true
  | c :: rest => if c = '_' then rest.isEmpty else isWordChar c && isNameTail rest

/-- The whole text is one token of the kind. -/
def acceptsChars : Kind → List Char → Bool
  | comment, '!' :: '>' :: '\n' :: body => closesComment body
  | comment, '!' :: '>' :: '\r' :: '\n' :: body => closesComment body
  | delimiter, text => delimiterTexts.contains text
  | excluded, text => text == ['~']
  | glyph, ['\'', c, '\''] => isVisible c
  | intrinsic, text => intrinsicTexts.contains text
  | literal, '"' :: body => isLiteralBody body && body != ['"']
  | lowercase, c :: rest => isSmall c && isNameTail rest
  | newline, text => text == ['\n'] || text == ['\r', '\n']
  | note, '!' :: ' ' :: rest => rest.all isVisible
  | number, text => !text.isEmpty && text.all isNumeral
  | quantified, text => text == ['?'] || text == ['*'] || text == ['+']
  | space, text => !text.isEmpty && text.all isBlank
  | uppercase, c :: rest => isCapital c && isNameTail rest
  | _, _ => false

/-- The whole text is one token of the kind. No text is a token of the two synthetic kinds. -/
def accepts (kind : Kind) (text : String) : Bool := kind.acceptsChars text.toList

end Kind
end GrammarBook
