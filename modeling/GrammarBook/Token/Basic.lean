import GrammarBook.Text.Quoted
import GrammarBook.Token.Kind

namespace GrammarBook

/-!
# Tokens

A token is a piece of the source with its kind and the place where it starts. Lines and positions
count from one; a position counts characters.
-/

/-- A place in a source. -/
structure Location where
  line : Nat
  position : Nat
  deriving DecidableEq, Repr

namespace Location

def start : Location := ⟨1, 1⟩

def step (place : Location) (c : Char) : Location :=
  if c = '\n' then ⟨place.line + 1, 1⟩ else ⟨place.line, place.position + 1⟩

def advance (place : Location) (text : List Char) : Location := text.foldl step place

@[simp] theorem advance_nil (place : Location) : place.advance [] = place := rfl

end Location

/-- A piece of source text with its kind and its place. -/
structure Token where
  kind : Kind
  text : String
  place : Location
  deriving DecidableEq, Repr

namespace Token

/-- The token as a message shows it. -/
def describe (token : Token) : String :=
  "Token [type: " ++ token.kind.name ++ ", line: " ++ toString token.place.line ++
    ", position: " ++ toString token.place.position ++ "]: " ++ Text.quote token.text

end Token
end GrammarBook
