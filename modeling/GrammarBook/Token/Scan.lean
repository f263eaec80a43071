import GrammarBook.Token.Basic
import GrammarBook.Token.Munch

namespace GrammarBook
namespace Token

/-!
# Scanning

A scan is the list of the tokens of a source. It ends with a token for the end of the source, or
with a token for the first character at which no token begins; blanks are left out.
-/

/-- The tokens of a text that starts at the given place. The number bounds the tokens to cut; each
takes a character at least, so the length of the text is enough. -/
def scanFrom : Nat → Location → List Char → List Token
  | _, place, [] => [⟨.eof, "", place⟩]
  | 0, _, _ :: _ => []
  | bound + 1, place, c :: rest =>
    match Kind.lexeme? (c :: rest) with
    | none => [⟨.error, String.ofList [c], place⟩]
    | some (kind, text, left) =>
      let following := scanFrom bound (place.advance text) left
      if kind.isImplicit then following else ⟨kind, String.ofList text, place⟩ :: following

/-- The tokens of a source. -/
def scan (source : String) : List Token :=
  scanFrom source.toList.length .start source.toList

end Token
end GrammarBook
