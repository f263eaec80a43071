import GrammarBook.Settings.Yaml.Reading

namespace GrammarBook
namespace Settings
namespace YamlFormat

/-!
# Settings in YAML

A text holds one document, between optional marks and behind optional directives. A text without a
document stands for a table without entries, as does a document without content.
-/

/-- The directives that tokens start with, and the tokens behind them. -/
def directives : List Token → List Directive × List Token
  | .directive directive :: tokens =>
    let (others, tokens) := directives tokens
    (directive :: others, tokens)
  | tokens => ([], tokens)

/-- A document has no content before a token like this. -/
def endsDocument : Token → Bool
  | .directive _ | .documentStart | .documentEnd => true
  | _ => false

/-- The root of a document behind its opening mark, and the tokens behind the document. -/
def markedRoot? (handles : List (String × String)) (tokens : List Token) :
    Option (Node × List Token) :=
  if tokens.head?.all endsDocument then some (.empty none, tokens)
  else
    ((Reader.node handles (tokens.length + 1) .column).run { tokens }).map fun (root, progress) =>
      (root, progress.tokens)

/-- The root of a document, and the tokens behind the document. Only a document without directives
may do without its opening mark, and then it has content. -/
def root? (tokens : List Token) : Option (Node × List Token) := do
  let (directives, tokens) := directives tokens
  let handles ← handles? directives
  match tokens with
  | .documentStart :: tokens => markedRoot? handles tokens
  | token :: tokens =>
    if directives.isEmpty ∧ !endsDocument token then markedRoot? handles (token :: tokens)
    else none
  | [] => none

/-- The value that a whole YAML text writes. -/
def read? (text : List Char) : Option Value := do
  let tokens ← tokens? text
  if tokens.isEmpty then return .table []
  let (root, tokens) ← root? tokens
  if tokens.all (· = .documentEnd) then pure (rootValue root) else none

end YamlFormat
end Settings
end GrammarBook
