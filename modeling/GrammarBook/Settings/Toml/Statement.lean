import GrammarBook.Settings.Toml.Quoted
import GrammarBook.Settings.Toml.Table
import GrammarBook.Settings.Toml.Word

namespace GrammarBook
namespace Settings
namespace TomlFormat

/-!
# Settings in TOML

A text is a row of statements on lines of their own. A statement gives a value to a name, or is a
header that says in which table the following names stand.
-/

/-! ## Names -/

/-- A character of a name without quotes. -/
def isBareChar (c : Char) : Bool := c.isAlphanum || c == '_' || c == '-'

def part? : List Char → Option (String × List Char)
  | '"' :: rest => quotedLine? '"' rest
  | '\'' :: rest => quotedLine? '\'' rest
  | text =>
    let (name, rest) := text.span isBareChar
    if name.isEmpty then none else some (String.ofList name, rest)

/-- The deepest nesting of brackets, and the most parts of a name. -/
def nestingLimit : Nat := 80

/-- A name with dots between its parts, of which there are at most as many as the bound. The rest
starts behind the blanks after it. -/
def parts? : Nat → List Char → Option (List String × List Char)
  | 0, _ => none
  | bound + 1, text => do
    let (part, rest) ← part? (text.dropWhile isBlank)
    match rest.dropWhile isBlank with
    | '.' :: rest =>
      let (others, rest) ← parts? bound rest
      pure (part :: others, rest)
    | rest => pure ([part], rest)

def name? (text : List Char) : Option (List String × List Char) := parts? nestingLimit text

/-! ## Between values -/

/-- The text from the end of a line on, behind a comment. -/
def comment? (text : List Char) : Option (List Char) :=
  match text.dropWhile isPrintable with
  | [] => some []
  | rest => if (lineEnd? rest).isSome then some rest else none

/-- The rest behind blanks, line ends and comments, of which there are at most as many as the
bound. -/
def filler? : Nat → List Char → Option (List Char)
  | 0, _ => none
  | bound + 1, text =>
    match text.dropWhile isBlank with
    | '#' :: rest => do filler? bound (← comment? rest)
    | rest =>
      match lineEnd? rest with
      | some rest => filler? bound rest
      | none => some rest

/-- The rest behind blanks, line ends and comments. -/
def skip? (text : List Char) : Option (List Char) := filler? (text.length + 1) text

def statementEnd? (text : List Char) : Option (List Char) := do
  let rest ←
    match text.dropWhile isBlank with
    | '#' :: rest => comment? rest
    | rest => some rest
  if rest.isEmpty then pure [] else lineEnd? rest

/-! ## Values -/

/-- What is read in the given way up to a closing mark, with a comma behind each but the last, where
it may stand; at most as many as the bound. -/
def series? {α : Type} (item : List Char → Option (α × List Char)) (closing : Char) :
    Nat → List Char → Option (List α × List Char)
  | 0, _ => none
  | bound + 1, text => do
    match ← skip? text with
    | [] => none
    | c :: rest =>
      if c = closing then return ([], rest)
      let (first, rest) ← item (c :: rest)
      match ← skip? rest with
      | [] => none
      | c :: rest =>
        if c = closing then return ([first], rest)
        if c ≠ ',' then none
        let (others, rest) ← series? item closing bound rest
        return (first :: others, rest)

/-- A name and a value read in the given way, with an equals sign and gaps between them. -/
def assignment? (gap? : List Char → Option (List Char))
    (value : List Char → Option (Value × List Char)) (text : List Char) :
    Option ((List String × Value) × List Char) := do
  let (name, rest) ← name? text
  match ← gap? rest with
  | '=' :: rest =>
    let (value, rest) ← value (← gap? rest)
    pure ((name, value), rest)
  | _ => none

def tableOf? (entries : List (List String × Value)) : Option Value := do
  let entries ← entries.foldlM (fun table entry => define? entry.2 entry.1 table) []
  pure (.table (entriesToValues entries))

/-- A value without brackets. -/
def simple? (text : List Char) : Option (Value × List Char) :=
  match text with
  | '"' :: rest => (quoted? '"' rest).map fun (text, rest) => (.scalar none (some text), rest)
  | '\'' :: rest => (quoted? '\'' rest).map fun (text, rest) => (.scalar none (some text), rest)
  | _ => word? text

/-- A value with brackets nested at most as deep as the bound. In curly brackets there may be line
ends and comments between the names and the values too. -/
def value? : Nat → List Char → Option (Value × List Char)
  | 0, text => simple? text
  | depth + 1, text =>
    match text with
    | '[' :: rest => do
      let (items, rest) ← series? (value? depth) ']' (rest.length + 1) rest
      pure (.list true items, rest)
    | '\x7b' :: rest => do
      let entry := assignment? skip? (value? depth)
      let (entries, rest) ← series? entry '\x7d' (rest.length + 1) rest
      pure (← tableOf? entries, rest)
    | _ => simple? text

/-! ## Statements -/

/-- What has been read: all tables, and the path of the one that is added to. -/
structure Progress where
  entries : Entries := []
  path : List String := []

/-- Goes on with the table of a header, which is opened in the given way. -/
def Progress.enter? (progress : Progress) (opening : String → Entries → Option Entries)
    (path : List String) : Option Progress := do
  let name ← path.getLast?
  let entries ← within (opening name) path.dropLast progress.entries
  pure ⟨entries, path⟩

def Progress.define? (progress : Progress) (name : List String) (value : Value) :
    Option Progress := do
  let entries ← within (TomlFormat.define? value name) progress.path progress.entries
  pure { progress with entries }

/-- Reads a statement; the rest starts right behind it. -/
def statement? (progress : Progress) (text : List Char) : Option (Progress × List Char) := do
  match text with
  | '[' :: '[' :: rest =>
    match ← name? rest with
    | (path, ']' :: ']' :: rest) => pure (← progress.enter? repeat? path, rest)
    | _ => none
  | '[' :: rest =>
    match ← name? rest with
    | (path, ']' :: rest) => pure (← progress.enter? open? path, rest)
    | _ => none
  | text =>
    let blanks? := fun text : List Char => some (text.dropWhile isBlank)
    let ((name, value), rest) ← assignment? blanks? (value? nestingLimit) text
    pure (← progress.define? name value, rest)

/-- Reads statements up to the end of the text, at most as many as the bound. -/
def statements? : Nat → Progress → List Char → Option Progress
  | 0, _, _ => none
  | bound + 1, progress, text => do
    let rest ← skip? text
    if rest.isEmpty then return progress
    let (progress, rest) ← statement? progress rest
    statements? bound progress (← statementEnd? rest)

/-- The text without a byte order mark. -/
def dropMark : List Char → List Char
  | c :: rest => if c = '\uFEFF' then rest else c :: rest
  | [] => []

/-- The value that a whole TOML text writes. -/
def read? (text : List Char) : Option Value := do
  let progress ← statements? (text.length + 1) {} (dropMark text)
  pure (.table (entriesToValues progress.entries))

end TomlFormat
end Settings
end GrammarBook
