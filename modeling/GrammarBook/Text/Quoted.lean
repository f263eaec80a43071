import GrammarBook.Text.Printable

namespace GrammarBook
namespace Text

/-!
# Quoted text in messages

A message quotes a piece of source between double quotes on one line. The quote, the backslash
and the usual blanks have short escapes; every other character that could not be seen is written
by its code point.
-/

/-- The code point of a character in lowercase hexadecimal without leading zeros. -/
def hexCode (c : Char) : List Char := Nat.toDigits 16 c.toNat

/-- One character as it stands between the quotes. -/
def escape (c : Char) : List Char :=
  if c = '"' then ['\\', '"']
  else if c = '\\' then ['\\', '\\']
  else if c = '\n' then ['\\', 'n']
  else if c = '\r' then ['\\', 'r']
  else if c = '\t' then ['\\', 't']
  else if c = Char.ofNat 0 then ['\\', '0']
  else if isShown c then [c]
  else ['\\', 'u', '\x7b'] ++ hexCode c ++ ['\x7d']

/-- The text between double quotes, every character escaped where it has to be. -/
def quote (text : String) : String :=
  String.ofList ('"' :: (text.toList.flatMap escape ++ ['"']))

end Text
end GrammarBook
