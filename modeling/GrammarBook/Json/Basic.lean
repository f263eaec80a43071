import GrammarBook.Text.Quoted

namespace GrammarBook

/-!
# JSON texts

Values that are written as JSON, on one line or spread over indented lines. Fields keep their
order. Characters outside ASCII stand as they are.
-/

/-- A value with a JSON text. -/
inductive Json where
  | null
  | bool (value : Bool)
  | natural (value : Nat)
  | text (value : String)
  | list (items : List Json)
  | fields (entries : List (String × Json))
  deriving Repr

namespace Json

/-- The value, or null where it is missing. -/
def orNull {α : Type} (write : α → Json) (value : Option α) : Json := value.elim null write

/-- A code point of at most two hexadecimal digits with four digits. -/
def fourDigits (c : Char) : List Char :=
  let digits := Text.hexCode c
  List.replicate (4 - digits.length) '0' ++ digits

/-- One character as it stands in a JSON text. -/
def escape (c : Char) : List Char :=
  if c = '"' then ['\\', '"']
  else if c = '\\' then ['\\', '\\']
  else if c = '\n' then ['\\', 'n']
  else if c = '\r' then ['\\', 'r']
  else if c = '\t' then ['\\', 't']
  else if c = Char.ofNat 8 then ['\\', 'b']
  else if c = Char.ofNat 12 then ['\\', 'f']
  else if c.toNat < 0x20 then ['\\', 'u'] ++ fourDigits c
  else [c]

/-- A text between JSON quotes. -/
def quoted (text : String) : String :=
  String.ofList ('"' :: (text.toList.flatMap escape ++ ['"']))

/-- The texts with the separator between them. -/
def joined (separator : String) (texts : List String) : String := separator.intercalate texts

mutual

/-- The value on one line without blanks. -/
def compact : Json → String
  | null => "null"
  | bool value => if value then "true" else "false"
  | natural value => toString value
  | text value => quoted value
  | list items => "[" ++ joined "," (compactItems items) ++ "]"
  | fields entries => "\x7b" ++ joined "," (compactEntries entries) ++ "\x7d"

def compactItems : List Json → List String
  | [] => []
  | item :: others => compact item :: compactItems others

def compactEntries : List (String × Json) → List String
  | [] => []
  | (name, value) :: others => (quoted name ++ ":" ++ compact value) :: compactEntries others

end

/-- A line break followed by two blanks for each level. -/
def lineBreak (depth : Nat) : String := "\n" ++ String.ofList (List.replicate (2 * depth) ' ')

/-- Texts on lines of their own between an opening and a closing mark; nothing between them where
there are no texts. -/
def spread (depth : Nat) (opening closing : String) (texts : List String) : String :=
  if texts.isEmpty then opening ++ closing
  else
    opening ++ lineBreak (depth + 1) ++ joined ("," ++ lineBreak (depth + 1)) texts ++
      lineBreak depth ++ closing

mutual

/-- The value over several lines, at a depth of indentation. -/
def prettyAt (depth : Nat) : Json → String
  | null => "null"
  | bool value => if value then "true" else "false"
  | natural value => toString value
  | text value => quoted value
  | list items => spread depth "[" "]" (prettyItems (depth + 1) items)
  | fields entries => spread depth "\x7b" "\x7d" (prettyEntries (depth + 1) entries)

def prettyItems (depth : Nat) : List Json → List String
  | [] => []
  | item :: others => prettyAt depth item :: prettyItems depth others

def prettyEntries (depth : Nat) : List (String × Json) → List String
  | [] => []
  | (name, value) :: others =>
    (quoted name ++ ": " ++ prettyAt depth value) :: prettyEntries depth others

end

/-- The value over several lines. -/
def pretty (value : Json) : String := value.prettyAt 0

end Json
end GrammarBook
