import GrammarBook.Settings.Value

namespace GrammarBook
namespace Settings
namespace YamlFormat

/-!
# Places in YAML texts

Columns carry meaning in a YAML text, and keys may not be too long. A cursor therefore knows,
besides the rest of the text, its line, its column in characters and its distance from the beginning
in bytes.
-/

/-- A character that may stand in a text at all. -/
def isAllowed (c : Char) : Bool :=
  let n := c.toNat
  n == 0x09 || n == 0x0A || n == 0x0D || (0x20 ≤ n && n ≤ 0x7E) || n == 0x85 ||
    (0xA0 ≤ n && n ≤ 0xD7FF) || (0xE000 ≤ n && n ≤ 0xFFFD) || 0x10000 ≤ n

def isBlank (c : Char) : Bool := c == ' ' || c == '\t'

def isBreak (c : Char) : Bool :=
  c == '\n' || c == '\r' || c == '\u0085' || c == '\u2028' || c == '\u2029'

/-- Nothing but a blank, a line end or the end of the text follows. -/
def endsWord : List Char → Bool
  | [] => true
  | c :: _ => isBlank c || isBreak c

/-- A character of an anchor, of a handle or of the name of a directive. -/
def isNameChar (c : Char) : Bool := c.isAlphanum || c == '_' || c == '-'

/-- What a line end counts for in a text that goes over several lines. -/
def breakChar (c : Char) : Char := if c == '\u2028' || c == '\u2029' then c else '\n'

/-- The number of characters of the line end that a text starts with. -/
def breakLength : List Char → Nat
  | '\r' :: '\n' :: _ => 2
  | _ => 1

/-- The number of bytes that characters take. -/
def byteCount (text : List Char) : Nat := text.foldl (fun count c => count + c.utf8Size) 0

/-- A place in a text. -/
structure Cursor where
  rest : List Char
  offset : Nat := 0
  line : Nat := 0
  column : Nat := 0

namespace Cursor

/-- The cursor behind a number of characters of its line. -/
def advance (cursor : Cursor) (count : Nat) : Cursor :=
  { cursor with
    rest := cursor.rest.drop count
    offset := cursor.offset + byteCount (cursor.rest.take count)
    column := cursor.column + count }

def nextLine (cursor : Cursor) : Cursor :=
  { cursor.advance (breakLength cursor.rest) with line := cursor.line + 1, column := 0 }

def advanceTo (cursor : Cursor) (rest : List Char) : Cursor :=
  cursor.advance (cursor.rest.length - rest.length)

/-- The next character. -/
def head? (cursor : Cursor) : Option Char := cursor.rest.head?

/-- The cursor behind the characters with a property. -/
def advanceWhile (cursor : Cursor) (property : Char → Bool) : Cursor :=
  cursor.advance (cursor.rest.takeWhile property).length

/-- The cursor stands before the mark of three equal characters at the beginning of a line. -/
def atMarker (cursor : Cursor) (mark : Char) : Bool :=
  match cursor.rest with
  | a :: b :: c :: rest =>
    cursor.column == 0 && a == mark && b == mark && c == mark && endsWord rest
  | _ => false

/-- The cursor stands before one of the marks between documents. -/
def atBoundary (cursor : Cursor) : Bool := cursor.atMarker '-' || cursor.atMarker '.'

/-- The cursor behind a comment, if it stands before one. -/
def skipComment (cursor : Cursor) : Cursor :=
  if cursor.head? = some '#' then cursor.advanceWhile fun c => !isBreak c else cursor

/-- The cursor behind blanks and a comment, where the line has to end, and behind the line end. -/
def endLine? (cursor : Cursor) : Option Cursor :=
  let cursor := (cursor.advanceWhile isBlank).skipComment
  match cursor.rest with
  | [] => some cursor
  | c :: _ => if isBreak c then some cursor.nextLine else none

end Cursor
end YamlFormat
end Settings
end GrammarBook
