import GrammarBook.Settings.Value
import GrammarBook.Text.Hexadecimal

namespace GrammarBook
namespace Settings
namespace TomlFormat

/-!
# Quoted texts of TOML

Between double quotes a backslash starts an escape; between single quotes it stands for itself.
Three quotes open a text that may go over several lines. The first line end of such a text does not
count, and up to two quotes may stand right before the closing ones.
-/

/-- A character that may stand in a text or a comment. -/
def isPrintable (c : Char) : Bool := c == '\t' || (0x20 ≤ c.toNat && c.toNat ≠ 0x7F)

def isBlank (c : Char) : Bool := c == ' ' || c == '\t'

/-- The rest behind a line end. -/
def lineEnd? : List Char → Option (List Char)
  | '\n' :: rest => some rest
  | '\r' :: '\n' :: rest => some rest
  | _ => none

/-- The text without one leading line end. -/
def dropLineEnd (text : List Char) : List Char := (lineEnd? text).getD text

/-- What an escape stands for, with the rest behind it. -/
def escape? : List Char → Option (Char × List Char)
  | [] => none
  | c :: rest =>
    if c = '"' ∨ c = '\\' then some (c, rest)
    else if c = 'b' then some (Char.ofNat 8, rest)
    else if c = 't' then some ('\t', rest)
    else if c = 'n' then some ('\n', rest)
    else if c = 'f' then some (Char.ofNat 12, rest)
    else if c = 'r' then some ('\r', rest)
    else if c = 'e' then some (Char.ofNat 27, rest)
    else if c = 'x' then Text.hexChar? 2 rest
    else if c = 'u' then Text.hexChar? 4 rest
    else if c = 'U' then Text.hexChar? 8 rest
    else none

def prepend (c : Char) (read : Option (List Char × List Char)) : Option (List Char × List Char) :=
  read.map fun (text, rest) => (c :: text, rest)

/-- A text on one line up to its quote. The bound is on its length. -/
def line? (quote : Char) : Nat → List Char → Option (List Char × List Char)
  | 0, _ => none
  | _, [] => none
  | bound + 1, c :: rest =>
    if c = quote then some ([], rest)
    else if c = '\\' ∧ quote = '"' then do
      let (c, rest) ← escape? rest
      prepend c (line? quote bound rest)
    else if isPrintable c then prepend c (line? quote bound rest)
    else none

/-- The text without the blanks and line ends that it starts with, of which there are at most as
many as the bound. -/
def dropGap : Nat → List Char → List Char
  | 0, text => text
  | bound + 1, text =>
    match text with
    | [] => []
    | c :: rest =>
      if isBlank c then dropGap bound rest
      else
        match lineEnd? (c :: rest) with
        | some rest => dropGap bound rest
        | none => c :: rest

/-- The text behind a backslash at the end of a line: blanks and line ends after it do not count. -/
def continuation? (text : List Char) : Option (List Char) := do
  let rest ← lineEnd? (text.dropWhile isBlank)
  pure (dropGap rest.length rest)

/-- The quotes that close a text over several lines; those before the last three belong to it. -/
def closing? (quote : Char) (text : List Char) : Option (List Char × List Char) :=
  let quotes := text.takeWhile (· = quote)
  if quotes.length < 3 then none
  else some (quotes.take (min (quotes.length - 3) 2), text.drop (min quotes.length 5))

/-- A text over several lines up to its quotes. The bound is on its length. -/
def lines? (quote : Char) : Nat → List Char → Option (List Char × List Char)
  | 0, _ => none
  | _, [] => none
  | bound + 1, c :: rest =>
    match closing? quote (c :: rest) with
    | some read => some read
    | none =>
      if c = '\\' ∧ quote = '"' then
        match continuation? rest with
        | some rest => lines? quote bound rest
        | none => do
          let (c, rest) ← escape? rest
          prepend c (lines? quote bound rest)
      else if c = '\n' ∨ isPrintable c then prepend c (lines? quote bound rest)
      else if c = '\r' ∧ rest.head? = some '\n' then prepend c (lines? quote bound rest)
      else none

/-- A text on one line behind its opening quote. -/
def quotedLine? (quote : Char) (text : List Char) : Option (String × List Char) :=
  (line? quote (text.length + 1) text).map fun (read, rest) => (String.ofList read, rest)

/-- A text behind its opening quote, of which there may be three. -/
def quoted? (quote : Char) (text : List Char) : Option (String × List Char) :=
  match text with
  | a :: b :: rest =>
    if a = quote ∧ b = quote then
      (lines? quote (text.length + 1) (dropLineEnd rest)).map fun (read, rest) =>
        (String.ofList read, rest)
    else quotedLine? quote text
  | _ => quotedLine? quote text

end TomlFormat
end Settings
end GrammarBook
