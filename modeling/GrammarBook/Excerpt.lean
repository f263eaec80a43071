import GrammarBook.Text.Lines
import GrammarBook.Text.Padding
import GrammarBook.Token.Basic

namespace GrammarBook
namespace Token

/-!
# Excerpts

An excerpt shows the line of a token, numbered, under the line before it, and an arrow that points
at the token's position.
-/

/-- The width of a line number with its colon and blank. -/
def gutter : Nat := 6

/-- The width of the arrow's own mark. -/
def arrowMark : String := " >>>"

def numberedLine (number : Nat) (line : List Char) : String :=
  Text.zeroPadded 4 number ++ ": " ++ String.ofList line ++ "\n"

/-- The line before the token's line, where there is one. -/
def previousLine (lines : List (List Char)) (line : Nat) : String :=
  if line < 2 then ""
  else match lines[line - 2]? with
    | some previous => numberedLine (line - 1) previous
    | none => ""

/-- The arrow to a position: dashes under the line number and the characters before it. -/
def arrow (position : Nat) : String :=
  arrowMark ++
    String.ofList (List.replicate (gutter + (position - 1) - arrowMark.length) '-') ++ "^"

/-- The excerpt of a source around a token. A token behind the last line end stands on an empty
line. -/
def excerpt (source : String) (token : Token) : String :=
  let lines := Text.lines source.toList
  let line := token.place.line
  previousLine lines line ++ numberedLine line ((lines[line - 1]?).getD []) ++
    arrow token.place.position

end Token
end GrammarBook
