namespace GrammarBook

/-!
# Kinds of token

The lexical units of a grammar document. Thirteen kinds are found in the source; the end of the
source and a character that begins no token have a kind of their own, so that every scan ends
with a token.
-/

/-- The kinds of token. -/
inductive Kind where
  | error
  | comment
  | delimiter
  | eof
  | excluded
  | glyph
  | intrinsic
  | literal
  | lowercase
  | newline
  | note
  | number
  | quantified
  | space
  | uppercase
  deriving DecidableEq, Repr

namespace Kind

/-- The name of a kind in messages and listings. -/
def name : Kind → String
  | error => "error"
  | comment => "comment"
  | delimiter => "delimiter"
  | eof => "eof"
  | excluded => "excluded"
  | glyph => "glyph"
  | intrinsic => "intrinsic"
  | literal => "literal"
  | lowercase => "lowercase"
  | newline => "newline"
  | note => "note"
  | number => "number"
  | quantified => "quantified"
  | space => "space"
  | uppercase => "uppercase"

def all : List Kind :=
  [error, comment, delimiter, eof, excluded, glyph, intrinsic, literal, lowercase, newline, note,
    number, quantified, space, uppercase]

def ofName? (text : String) : Option Kind := all.find? (·.name == text)

theorem ofName?_name (kind : Kind) : ofName? kind.name = some kind := by
  cases kind <;> rfl

/-- The kinds in the order in which the source is tried for them. -/
def scanOrder : List Kind :=
  [comment, delimiter, excluded, glyph, intrinsic, literal, lowercase, newline, note, number,
    quantified, space, uppercase]

/-- A kind is looked for in the source unless it stands for the end or an error. -/
theorem mem_scanOrder {kind : Kind} : kind ∈ scanOrder ↔ kind ≠ eof ∧ kind ≠ error := by
  cases kind <;> decide

/-- The regular expression that documents the spelling of a kind. -/
def pattern? : Kind → Option String
  | comment => some "!>\\r?\\n(?:(?s:.)*?\\r?\\n)?<!"
  | delimiter => some "\\.\\.|[:|()\\[\\]\x7b\x7d-]"
  | excluded => some "~"
  | glyph => some "'[^\\x00-\\x1F\\x7F]'"
  | intrinsic => some "ANY|CONTROL|DIGIT|EOL|LOWER|UPPER"
  | literal => some "\"(?:\\\\[^\\x00-\\x1F\\x7F]|[^\"\\\\\\x00-\\x1F\\x7F])+\""
  | lowercase => some "[a-z][0-9A-Za-z]*_?"
  | newline => some "\\r?\\n"
  | note => some "! [^\\x00-\\x1F\\x7F]*"
  | number => some "[0-9]+"
  | quantified => some "[?*+]"
  | space => some "[ \\t]+"
  | uppercase => some "[A-Z][0-9A-Za-z]*_?"
  | eof | error => none

/-- Tokens of an implicit kind separate other tokens and are not part of a scan. -/
def isImplicit (kind : Kind) : Bool := kind == space

end Kind

def intrinsicNames : List String := ["ANY", "CONTROL", "DIGIT", "EOL", "LOWER", "UPPER"]

end GrammarBook
