namespace GrammarBook
namespace Text

/-!
# Lines

A line ends with a newline, which may follow a carriage return. Both belong to the line end; a
carriage return without a newline is part of the line. Nothing follows a final line end.
-/

/-- The line without the carriage return of its line end. -/
def dropReturn (line : List Char) : List Char :=
  if line.getLast? = some '\r' then line.dropLast else line

/-- Splits off lines; `line` holds the characters of the current line, the latest first. -/
def linesFrom (line : List Char) : List Char → List (List Char)
  | [] => if line.isEmpty then [] else [line.reverse]
  | c :: rest =>
    if c = '\n' then dropReturn line.reverse :: linesFrom [] rest else linesFrom (c :: line) rest

/-- The lines of a text without their line ends. -/
def lines (text : List Char) : List (List Char) := linesFrom [] text

end Text
end GrammarBook
