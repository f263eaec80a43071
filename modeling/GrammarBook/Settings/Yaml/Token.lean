import GrammarBook.Settings.Yaml.Scalar
import GrammarBook.Settings.Yaml.Tag

namespace GrammarBook
namespace Settings
namespace YamlFormat

/-!
# Tokens of YAML texts

A text is a row of tokens. Blocks that are told by their columns have tokens for their beginning and
their end too, and every key has a mark in front, whether the text has one or not. What the tokens
are at a place depends on what came before: on the open brackets and columns, and on the places
where a key may have started. The main function is `tokens?`.
-/

/-- The ways to write a scalar. -/
inductive Style where
  | plain
  | quoted
  | literal
  | folded
  deriving DecidableEq, Repr

/-- A token. A column starts a sequence or a mapping, brackets are square for a sequence and curly
for a mapping. -/
inductive Token where
  | directive (directive : Directive)
  | documentStart
  | documentEnd
  | sequenceColumn
  | mappingColumn
  | columnEnd
  | openSquare
  | closeSquare
  | openCurly
  | closeCurly
  | comma
  | item
  | key
  | value
  | alias (name : String)
  | anchor (name : String)
  | tag (tag : Tag)
  | scalar (style : Style) (text : List Char)
  deriving DecidableEq, Repr

/-- A place where a key may have started: the number of tokens before it, and whether nothing but a
key can stand there. -/
structure KeyStart where
  position : Nat
  offset : Nat
  line : Nat
  column : Nat
  isRequired : Bool

/-- The most bytes of a key, from its beginning to the colon. -/
def keyLimit : Nat := 1024

/-- A key that starts there does not reach the cursor: it stands on one line and is not long. -/
def KeyStart.isOver (start : KeyStart) (cursor : Cursor) : Bool :=
  start.line < cursor.line || start.offset + keyLimit < cursor.offset

/-- What is known at a place: the tokens before it, the columns of the open blocks from the inside
out, whether a key or an item may start, and the last place where a key may have started, inside the
innermost brackets and outside each of those that are open. -/
structure Lexer where
  cursor : Cursor
  tokens : Array Token := #[]
  columns : List Nat := []
  mayStart : Bool := true
  keyStart : Option KeyStart := none
  outerStarts : List (Option KeyStart) := []

namespace Lexer

/-- A bracket is open. -/
def inFlow (lexer : Lexer) : Bool := !lexer.outerStarts.isEmpty

/-- The first column inside the innermost block. -/
def margin (lexer : Lexer) : Nat := lexer.columns.head?.elim 0 (· + 1)

def push (lexer : Lexer) (token : Token) : Lexer :=
  { lexer with tokens := lexer.tokens.push token }

/-- Adds a token in front of others. -/
def insert (lexer : Lexer) (position : Nat) (token : Token) : Lexer :=
  { lexer with tokens := lexer.tokens.insertIdxIfInBounds position token }

/-- Sets the place, and whether a key or an item may start there. -/
def moveTo (lexer : Lexer) (cursor : Cursor) (mayStart : Bool) : Lexer :=
  { lexer with cursor, mayStart }

/-! ## Places of keys -/

/-- Forgets where a key may have started. A required key is not forgotten. -/
def dropKey? (lexer : Lexer) : Option Lexer :=
  if lexer.keyStart.any (·.isRequired) then none else some { lexer with keyStart := none }

/-- Notes that a key may start here. It has to where the column of the innermost block goes on. -/
def noteKey? (lexer : Lexer) : Option Lexer :=
  if lexer.mayStart then
    let cursor := lexer.cursor
    let start : KeyStart :=
      { position := lexer.tokens.size
        offset := cursor.offset
        line := cursor.line
        column := cursor.column
        isRequired := !lexer.inFlow && lexer.columns.head? == some cursor.column }
    lexer.dropKey?.map fun lexer => { lexer with keyStart := some start }
  else some lexer

/-- The start of a key, if it is not over at the cursor. -/
def current? (cursor : Cursor) : Option KeyStart → Option (Option KeyStart)
  | none => some none
  | some start =>
    if !start.isOver cursor then some (some start)
    else if start.isRequired then none
    else some none

/-- Forgets the keys that do not reach the cursor. -/
def dropPassed? (lexer : Lexer) : Option Lexer := do
  let keyStart ← current? lexer.cursor lexer.keyStart
  let outerStarts ← lexer.outerStarts.mapM (current? lexer.cursor)
  pure { lexer with keyStart, outerStarts }

/-! ## Columns -/

/-- Opens a block in a column, unless one is open there or further in. Its token comes in front of
those from the position on. -/
def openColumn (lexer : Lexer) (column position : Nat) (token : Token) : Lexer :=
  if lexer.inFlow || lexer.columns.head?.any (column ≤ ·) then lexer
  else { lexer.insert position token with columns := column :: lexer.columns }

/-- Closes the blocks whose columns have a property, from the inside out. -/
def closeColumns (lexer : Lexer) (property : Nat → Bool) : Lexer :=
  if lexer.inFlow then lexer
  else
    let ended := lexer.columns.takeWhile property
    { lexer with
      tokens := lexer.tokens ++ ended.map fun _ => Token.columnEnd
      columns := lexer.columns.drop ended.length }

/-- Closes all blocks, where no key may be open. -/
def closeAll? (lexer : Lexer) : Option Lexer := (lexer.closeColumns fun _ => true).dropKey?

/-! ## Tokens one by one -/

/-- The cursor behind blanks, comments and line ends, of which there are at most as many as the
bound. Outside brackets tabs are no blanks where something may start, as it may on a new line. -/
def skipUpTo (inFlow : Bool) : Nat → Bool → Cursor → Cursor × Bool
  | 0, mayStart, cursor => (cursor, mayStart)
  | bound + 1, mayStart, cursor =>
    match cursor.rest with
    | [] => (cursor, mayStart)
    | c :: _ =>
      if c == ' ' || (c == '\t' && (inFlow || !mayStart)) ||
          (c == '\uFEFF' && cursor.column == 0) then
        skipUpTo inFlow bound mayStart (cursor.advance 1)
      else if c == '#' then skipUpTo inFlow bound mayStart cursor.skipComment
      else if isBreak c then skipUpTo inFlow bound (!inFlow || mayStart) cursor.nextLine
      else (cursor, mayStart)

def skip (lexer : Lexer) : Lexer :=
  let (cursor, mayStart) :=
    skipUpTo lexer.inFlow (lexer.cursor.rest.length + 1) lexer.mayStart lexer.cursor
  lexer.moveTo cursor mayStart

def readDirective? (lexer : Lexer) : Option Lexer := do
  let lexer ← lexer.closeAll?
  let (directive, cursor) ← directive? (lexer.cursor.advance 1)
  pure ((lexer.push (.directive directive)).moveTo cursor false)

/-- Reads a mark between documents. -/
def readBoundary? (lexer : Lexer) (token : Token) : Option Lexer := do
  let lexer ← lexer.closeAll?
  pure ((lexer.push token).moveTo (lexer.cursor.advance 3) false)

def readOpening? (lexer : Lexer) (token : Token) : Option Lexer := do
  let lexer ← lexer.noteKey?
  let outer := { lexer with
    outerStarts := lexer.keyStart :: lexer.outerStarts
    keyStart := none }
  pure ((outer.push token).moveTo (lexer.cursor.advance 1) true)

/-- Reads a closing bracket, which need not close any. -/
def readClosing? (lexer : Lexer) (token : Token) : Option Lexer := do
  let lexer ← lexer.dropKey?
  let inner :=
    match lexer.outerStarts with
    | [] => lexer
    | keyStart :: outerStarts => { lexer with keyStart, outerStarts }
  pure ((inner.push token).moveTo (lexer.cursor.advance 1) false)

def readComma? (lexer : Lexer) : Option Lexer := do
  let lexer ← lexer.dropKey?
  pure ((lexer.push .comma).moveTo (lexer.cursor.advance 1) true)

/-- Opens a block in the column of the cursor, where something may start. -/
def openHere? (lexer : Lexer) (token : Token) : Option Lexer :=
  if lexer.inFlow then some lexer
  else if lexer.mayStart then
    some (lexer.openColumn lexer.cursor.column lexer.tokens.size token)
  else none

/-- Reads the hyphen of an item. -/
def readItem? (lexer : Lexer) : Option Lexer := do
  let lexer ← (← lexer.openHere? .sequenceColumn).dropKey?
  pure ((lexer.push .item).moveTo (lexer.cursor.advance 1) true)

/-- Reads the question mark of a key. -/
def readKey? (lexer : Lexer) : Option Lexer := do
  let lexer ← (← lexer.openHere? .mappingColumn).dropKey?
  pure ((lexer.push .key).moveTo (lexer.cursor.advance 1) (!lexer.inFlow))

/-- Reads the colon of a value. Where a key may have started it turns out to be one. -/
def readValue? (lexer : Lexer) : Option Lexer := do
  let behind := lexer.cursor.advance 1
  match lexer.keyStart with
  | some start =>
    let lexer := { lexer.insert start.position .key with keyStart := none }
    let lexer := lexer.openColumn start.column start.position .mappingColumn
    pure ((lexer.push .value).moveTo behind false)
  | none =>
    let lexer ← lexer.openHere? .mappingColumn
    pure ((lexer.push .value).moveTo behind (!lexer.inFlow))

/-- The name of an anchor behind its mark. -/
def anchorName? (cursor : Cursor) : Option (String × Cursor) :=
  let (name, rest) := cursor.rest.span isNameChar
  if name.isEmpty then none
  else if endsWord rest ∨ rest.head?.any (fun c => "?:,]\x7d%@`".toList.contains c) then
    some (String.ofList name, cursor.advanceTo rest)
  else none

def readName? (lexer : Lexer) (token : String → Token) : Option Lexer := do
  let lexer ← lexer.noteKey?
  let (name, cursor) ← anchorName? (lexer.cursor.advance 1)
  pure ((lexer.push (token name)).moveTo cursor false)

def readTag? (lexer : Lexer) : Option Lexer := do
  let lexer ← lexer.noteKey?
  let (tag, cursor) ← tag? lexer.inFlow (lexer.cursor.advance 1)
  pure ((lexer.push (.tag tag)).moveTo cursor false)

/-- Reads a block of lines. It is no key. -/
def readBlock? (lexer : Lexer) (style : Style) : Option Lexer := do
  let lexer ← lexer.dropKey?
  let (text, cursor) ← block? (style == .folded) lexer.margin (lexer.cursor.advance 1)
  pure ((lexer.push (.scalar style text)).moveTo cursor true)

def readQuoted? (lexer : Lexer) (quote : Char) : Option Lexer := do
  let lexer ← lexer.noteKey?
  let (text, cursor) ← quoted? quote (lexer.cursor.rest.length + 1) (lexer.cursor.advance 1)
  pure ((lexer.push (.scalar .quoted text)).moveTo cursor false)

def readPlain? (lexer : Lexer) : Option Lexer := do
  let lexer ← lexer.noteKey?
  let (text, cursor, hasEnded) ←
    plain? lexer.inFlow lexer.margin (lexer.cursor.rest.length + 1) lexer.cursor
  pure ((lexer.push (.scalar .plain text)).moveTo cursor hasEnded)

/-- Reads the token at the cursor, which starts with the given character. -/
def read? (lexer : Lexer) (c : Char) (rest : List Char) : Option Lexer :=
  let isWord := endsWord rest
  if c = '%' ∧ lexer.cursor.column = 0 then lexer.readDirective?
  else if lexer.cursor.atMarker '-' then lexer.readBoundary? .documentStart
  else if lexer.cursor.atMarker '.' then lexer.readBoundary? .documentEnd
  else if c = '[' then lexer.readOpening? .openSquare
  else if c = '\x7b' then lexer.readOpening? .openCurly
  else if c = ']' then lexer.readClosing? .closeSquare
  else if c = '\x7d' then lexer.readClosing? .closeCurly
  else if c = ',' then lexer.readComma?
  else if c = '-' ∧ isWord then lexer.readItem?
  else if c = '?' ∧ (lexer.inFlow ∨ isWord) then lexer.readKey?
  else if c = ':' ∧ (lexer.inFlow ∨ isWord) then lexer.readValue?
  else if c = '*' then lexer.readName? .alias
  else if c = '&' then lexer.readName? .anchor
  else if c = '!' then lexer.readTag?
  else if c = '|' ∧ !lexer.inFlow then lexer.readBlock? .literal
  else if c = '>' ∧ !lexer.inFlow then lexer.readBlock? .folded
  else if c = '\'' ∨ c = '"' then lexer.readQuoted? c
  else if startsPlain lexer.inFlow (c :: rest) then lexer.readPlain?
  else none

/-- Reads tokens up to the end of the text, at most as many as the bound. -/
def readAll? : Nat → Lexer → Option Lexer
  | 0, _ => none
  | bound + 1, lexer => do
    let lexer ← lexer.skip.dropPassed?
    let lexer := lexer.closeColumns (lexer.cursor.column < ·)
    match lexer.cursor.rest with
    | [] => lexer.closeAll?
    | c :: rest => readAll? bound (← lexer.read? c rest)

end Lexer

def tokens? (text : List Char) : Option (List Token) := do
  if !text.all isAllowed then none
  let lexer ← Lexer.readAll? (text.length + 1) { cursor := { rest := text } }
  pure lexer.tokens.toList

end YamlFormat
end Settings
end GrammarBook
