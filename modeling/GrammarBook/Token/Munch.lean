import GrammarBook.Token.Spelling

namespace GrammarBook
namespace Kind

/-!
# The next token of a source

`munch?` cuts a token of a given kind off the front of a text. Comments end at the first line that
starts with the closing mark; all other kinds take what they can. `lexeme?` tries the kinds in
their order. The names of the intrinsics are only intrinsics where no longer name begins.
-/

/-- A text cut in two. -/
abbrev Cut := List Char × List Char

def Cut.prepend (front : List Char) (cut : Cut) : Cut := (front ++ cut.1, cut.2)

/-- Cuts behind the first closing mark that stands directly after a newline. -/
def cutAtClosingLine : List Char → Option Cut
  | [] => none
  | '\n' :: '<' :: '!' :: rest => some (['\n', '<', '!'], rest)
  | c :: rest => (cutAtClosingLine rest).map (Cut.prepend [c])

/-- Cuts a comment whose opening line has been read: at the first line that starts with the closing
mark, else at a closing mark that stands right here. -/
def cutCommentBody (text : List Char) : Option Cut :=
  match cutAtClosingLine text with
  | some cut => some cut
  | none =>
    match text with
    | '<' :: '!' :: rest => some (['<', '!'], rest)
    | _ => none

/-- Cuts behind the quote that closes a literal. -/
def cutLiteralBody : List Char → Option Cut
  | [] => none
  | '\\' :: c :: rest =>
    if isVisible c then (cutLiteralBody rest).map (Cut.prepend ['\\', c]) else none
  | c :: rest =>
    if c = '"' then some (['"'], rest)
    else if isVisible c && c != '\\' then (cutLiteralBody rest).map (Cut.prepend [c])
    else none

/-- Cuts behind letters, digits and one underscore. -/
def cutNameTail : List Char → Cut
  | [] => ([], [])
  | c :: rest =>
    if c = '_' then (['_'], rest)
    else if isWordChar c then (cutNameTail rest).prepend [c]
    else ([], c :: rest)

/-- Cuts behind the characters that have a property. -/
def cutWhile (holds : Char → Bool) : List Char → Cut
  | [] => ([], [])
  | c :: rest => if holds c then (cutWhile holds rest).prepend [c] else ([], c :: rest)

/-- Cuts behind the first of the given words that the text starts with. -/
def cutWord (words : List (List Char)) (text : List Char) : Option Cut :=
  (words.find? (·.isPrefixOf text)).map fun word => (word, text.drop word.length)

/-- The cut, unless nothing was taken. -/
def Cut.nonempty? (cut : Cut) : Option Cut := if cut.1.isEmpty then none else some cut

/-- Cuts a token of the kind off the front of the text. -/
def munch? : Kind → List Char → Option Cut
  | comment, '!' :: '>' :: '\n' :: body =>
    (cutCommentBody body).map (Cut.prepend ['!', '>', '\n'])
  | comment, '!' :: '>' :: '\r' :: '\n' :: body =>
    (cutCommentBody body).map (Cut.prepend ['!', '>', '\r', '\n'])
  | delimiter, text => cutWord delimiterTexts text
  | excluded, '~' :: rest => some (['~'], rest)
  | glyph, '\'' :: c :: '\'' :: rest =>
    if isVisible c then some (['\'', c, '\''], rest) else none
  | intrinsic, text => cutWord intrinsicTexts text
  | literal, '"' :: body =>
    if body.head? = some '"' then none else (cutLiteralBody body).map (Cut.prepend ['"'])
  | lowercase, c :: rest => if isSmall c then some ((cutNameTail rest).prepend [c]) else none
  | newline, '\n' :: rest => some (['\n'], rest)
  | newline, '\r' :: '\n' :: rest => some (['\r', '\n'], rest)
  | note, '!' :: ' ' :: rest => some ((cutWhile isVisible rest).prepend ['!', ' '])
  | number, text => (cutWhile isNumeral text).nonempty?
  | quantified, c :: rest => if c = '?' ∨ c = '*' ∨ c = '+' then some ([c], rest) else none
  | space, text => (cutWhile isBlank text).nonempty?
  | uppercase, c :: rest => if isCapital c then some ((cutNameTail rest).prepend [c]) else none
  | _, _ => none

/-- A cut token of the kind may stand where it was cut: no intrinsic before a character that would
make its name a longer one. -/
def mayStand (kind : Kind) (cut : Cut) : Bool :=
  kind != intrinsic || !(cut.2.head?.any continuesName)

/-- Cuts a token of the kind off the front of the text, if it may stand there. -/
def take? (kind : Kind) (text : List Char) : Option Cut := (kind.munch? text).filter kind.mayStand

/-- The first kind in the given order of which a token can be taken, with the cut. -/
def firstLexeme? (order : List Kind) (text : List Char) : Option (Kind × Cut) :=
  order.findSome? fun kind => (kind.take? text).map (kind, ·)

/-- The next token of a text. -/
def lexeme? (text : List Char) : Option (Kind × Cut) := firstLexeme? scanOrder text

end Kind
end GrammarBook
