import GrammarBook.Settings.Value
import GrammarBook.Text.Hexadecimal

namespace GrammarBook
namespace Settings
namespace JsonFormat

/-!
# Settings in JSON

A reader of JSON texts. Escaped surrogates have to come in pairs; a text in which they do not has no
reading, and neither has an object with such a text for a name.
-/

/-- A blank between the parts of a JSON text. -/
def isSpace (c : Char) : Bool := c == ' ' || c == '\n' || c == '\t' || c == '\r'

def skipSpace (text : List Char) : List Char := text.dropWhile isSpace

/-- What a character after a backslash stands for. -/
def simpleEscape? (c : Char) : Option Char :=
  if c = '"' ∨ c = '\\' ∨ c = '/' then some c
  else if c = 'b' then some (Char.ofNat 8)
  else if c = 'f' then some (Char.ofNat 12)
  else if c = 'n' then some '\n'
  else if c = 'r' then some '\r'
  else if c = 't' then some '\t'
  else none

/-- The code points between the quotes of a text, surrogates included. -/
def units? : List Char → Option (List Nat × List Char)
  | [] => none
  | '\\' :: 'u' :: a :: b :: c :: d :: rest => do
    let unit ← Text.hexValue? [a, b, c, d]
    let (units, rest) ← units? rest
    pure (unit :: units, rest)
  | '\\' :: c :: rest => do
    let c ← simpleEscape? c
    let (units, rest) ← units? rest
    pure (c.toNat :: units, rest)
  | c :: rest =>
    if c = '"' then some ([], rest)
    else if c.toNat < 0x20 ∨ c = '\\' then none
    else do
      let (units, rest) ← units? rest
      pure (c.toNat :: units, rest)

/-- The first of a pair of surrogates. -/
def isHigh (unit : Nat) : Bool := 0xD800 ≤ unit && unit ≤ 0xDBFF

/-- The second of a pair of surrogates. -/
def isLow (unit : Nat) : Bool := 0xDC00 ≤ unit && unit ≤ 0xDFFF

/-- The characters of code points, if surrogates come in pairs. -/
def charsOf? : List Nat → Option (List Char)
  | [] => some []
  | high :: low :: rest =>
    if isHigh high then
      if isLow low then
        (charsOf? rest).map (Char.ofNat (0x10000 + (high - 0xD800) * 0x400 + (low - 0xDC00)) :: ·)
      else none
    else if isLow high then none
    else (charsOf? (low :: rest)).map (Char.ofNat high :: ·)
  | [unit] => if isHigh unit || isLow unit then none else some [Char.ofNat unit]

/-- One digit at least. -/
def digits? (text : List Char) : Option (List Char × List Char) :=
  let (digits, rest) := text.span Text.isDecimal
  if digits.isEmpty then none else some (digits, rest)

/-- The digits before the point of a number: no zero stands before others. -/
def integerDigits? : List Char → Option (List Char × List Char)
  | '0' :: rest => if rest.head?.any Text.isDecimal then none else some (['0'], rest)
  | text => digits? text

/-- The part of a number behind its integer, and whether there is one. -/
def fraction? (text : List Char) : Option (Bool × List Char) := do
  let (hasPoint, text) ←
    match text with
    | '.' :: rest => do
      let (_, rest) ← digits? rest
      pure (true, rest)
    | _ => pure (false, text)
  match text with
  | 'e' :: '+' :: rest | 'e' :: '-' :: rest | 'E' :: '+' :: rest | 'E' :: '-' :: rest
  | 'e' :: rest | 'E' :: rest => do
    let (_, rest) ← digits? rest
    pure (true, rest)
  | _ => pure (hasPoint, text)

/-- The count that digits write, if it is one. -/
def countOf? (digits : List Char) : Option Nat := Text.readCount (String.ofList digits)

/-- A number; it reads as a count if it has neither sign nor fraction. -/
def number? : List Char → Option (Value × List Char)
  | '-' :: rest => do
    let (_, rest) ← integerDigits? rest
    let (_, rest) ← fraction? rest
    pure (.other, rest)
  | text => do
    let (digits, rest) ← integerDigits? text
    let (hasFraction, rest) ← fraction? rest
    pure (.scalar (if hasFraction then none else countOf? digits) none, rest)

/-- The rest behind a word that the text starts with. -/
def word? (word : String) (text : List Char) : Option (List Char) :=
  if word.toList.isPrefixOf text then some (text.drop word.length) else none

/-- Parts separated by commas up to a closing mark, read in the given way, at most as many as the
bound. -/
def parts? {α : Type} (part : List Char → Option (α × List Char)) (closing : Char) :
    Nat → List Char → Option (List α × List Char)
  | 0, _ => none
  | bound + 1, text => do
    let (first, text) ← part (skipSpace text)
    match skipSpace text with
    | c :: rest =>
      if c = closing then pure ([first], rest)
      else if c = ',' then do
        let (others, rest) ← parts? part closing bound rest
        pure (first :: others, rest)
      else none
    | [] => none

/-- The parts of a list or an object behind its opening mark; there may be none. -/
def body? {α : Type} (part : List Char → Option (α × List Char)) (closing : Char)
    (text : List Char) : Option (List α × List Char) :=
  match skipSpace text with
  | [] => none
  | c :: rest =>
    if c = closing then some ([], rest) else parts? part closing text.length (c :: rest)

/-- The text that code points write. -/
def textOf? (units : List Nat) : Option String := (charsOf? units).map String.ofList

/-- A field of an object: a name, a colon and a value read in the given way. -/
def field? (value : List Char → Option (Value × List Char)) :
    List Char → Option ((Option String × Value) × List Char)
  | '"' :: text => do
    let (units, text) ← units? text
    match skipSpace text with
    | ':' :: rest => do
      let (value, rest) ← value (skipSpace rest)
      pure ((textOf? units, value), rest)
    | _ => none
  | _ => none

/-- A value nested at most as deep as the bound. -/
def value? : Nat → List Char → Option (Value × List Char)
  | 0, _ => none
  | depth + 1, text =>
    match text with
    | '"' :: rest => do
      let (units, rest) ← units? rest
      pure (.scalar none (textOf? units), rest)
    | '[' :: rest => do
      let (items, rest) ← body? (value? depth) ']' rest
      pure (.list false items, rest)
    | '\x7b' :: rest => do
      let (entries, rest) ← body? (field? (value? depth)) '\x7d' rest
      pure (.ofEntries entries, rest)
    | 'n' :: _ => (word? "null" text).map (.null, ·)
    | 't' :: _ => (word? "true" text).map (.other, ·)
    | 'f' :: _ => (word? "false" text).map (.other, ·)
    | _ => number? text

/-- The value that a whole JSON text writes. -/
def read? (text : List Char) : Option Value := do
  let (value, rest) ← value? (text.length + 1) (skipSpace text)
  if (skipSpace rest).isEmpty then pure value else none

end JsonFormat
end Settings
end GrammarBook
