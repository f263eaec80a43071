import GrammarBook.Walk.Visitor

namespace GrammarBook

/-!
# Canonical layout

A formatter writes a document down as it is shown its walk. Comments, rules and expressions are set
off by empty lines, the parts of a sequence by single blanks, and the lines of a multiline
definition stand indented below each other. A formatter can be used again: it starts every document
afresh, however its last walk ended.
-/

/-- A formatter with the text it has written so far, and how deep it stands in multiline definitions
and in groups. -/
structure Formatter where
  indentSize : Nat := 2
  output : String := ""
  depth : Nat := 0
  groups : Nat := 0

namespace Formatter

open Walk

/-- How a leaf is written. -/
def leafText (kind : Kind) (text : String) : String :=
  match kind with
  | .comment => text ++ "\n\n"
  | .delimiter => if text = "|" then " | " else if text = "-" then "- " else text
  | .note => "  " ++ text
  | _ => text

/-- The blank between the members of a list. -/
def separator (rank : Option Rank) : String :=
  match rank with
  | some rank => if 1 < rank.index then " " else ""
  | none => ""

def indentation (formatter : Formatter) : String :=
  String.ofList (List.replicate (formatter.depth * formatter.indentSize) ' ')

def write (text : String) : Follow Formatter Unit :=
  modify fun formatter => { formatter with output := formatter.output ++ text }

/-- What comes before a node. -/
def opening (node : Node) (rank : Option Rank) : Follow Formatter Unit := do
  match node with
  | .multiline _ => modify fun formatter => { formatter with depth := formatter.depth + 1 }
  | .line _ => write ("\n" ++ (← get).indentation)
  | .inlined .. => write " "
  | .term _ | .repetition _ | .character _ => write (separator rank)
  | .pattern _ => if (← get).groups = 0 then write " "
  | .group _ => modify fun formatter => { formatter with groups := formatter.groups + 1 }
  | _ => pure ()

/-- What comes after a node. -/
def closing (node : Node) (rank : Option Rank) : Follow Formatter Unit := do
  match node with
  | .rule _ => write "\n\n"
  | .multiline _ => modify fun formatter => { formatter with depth := formatter.depth - 1 }
  | .expression _ =>
    write "\n"
    if rank.any fun rank => rank.index < rank.size then write "\n"
  | .group _ => modify fun formatter => { formatter with groups := formatter.groups - 1 }
  | _ => pure ()

def visit : Event → Follow Formatter Unit
  | .leaf kind text => write (leafText kind text)
  | .enter node rank => opening node rank
  | .leave node rank => closing node rank

/-- The formatter before it writes a document. -/
def cleared (formatter : Formatter) : Formatter :=
  { formatter with output := "", depth := 0, groups := 0 }

/-- Work that writes a document and hands over the text. -/
def formatting (document : Document) : Follow Formatter String := do
  modify cleared
  document.walk visit
  let formatter ← get
  set { formatter with output := "" }
  pure formatter.output

/-- The canonical text of a document, with the formatter to go on with. -/
def format (formatter : Formatter) (document : Document) : Except Fault String × Formatter :=
  (formatting document).runOn formatter

end Formatter
end GrammarBook
