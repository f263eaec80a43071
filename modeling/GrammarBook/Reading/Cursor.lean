import GrammarBook.Reading.Production
import GrammarBook.Token.Basic

namespace GrammarBook
namespace Reading

/-!
# Cursors and readers

A cursor stands between tokens. Tokens that were taken and handed back are held in front of those
not yet taken, so that it stays visible how far the source had to be scanned. A reader takes a
piece of a document from a cursor: it finds one, sees that there is none and hands back what it
took, or has to reject the document.

The combinators below are the whole vocabulary of the productions: a token, a choice, a part that
may be missing, a part that has to follow, and a row of parts. A row ends at the first place where
no further part is found.
-/

/-- The tokens still to be read: those handed back, then those not yet taken. -/
structure Cursor where
  held : List Token
  ahead : List Token
  deriving DecidableEq, Repr

namespace Cursor

def start (tokens : List Token) : Cursor := ⟨[], tokens⟩

/-- All tokens still to be read, in their order. -/
def pending (cursor : Cursor) : List Token := cursor.held ++ cursor.ahead

def handBack (cursor : Cursor) (token : Token) : Cursor :=
  { cursor with held := token :: cursor.held }

@[simp] theorem pending_start (tokens : List Token) : (start tokens).pending = tokens := rfl

@[simp] theorem pending_handBack (cursor : Cursor) (token : Token) :
    (cursor.handBack token).pending = token :: cursor.pending := rfl

end Cursor

/-- Why reading stops: no token begins at a character, a token is not the expected one, or the
tokens ended without a token for the end. -/
inductive Rejection where
  | illegal (token : Token)
  | unexpected (token : Token) (production : Production)
  | exhausted
  deriving DecidableEq, Repr

/-- What comes of reading at a cursor, with the cursor behind it. -/
inductive Outcome (α : Type) where
  | found (value : α) (rest : Cursor)
  | absent (rest : Cursor)
  | rejected (cause : Rejection) (rest : Cursor)
  deriving Repr

/-- A way to take a piece of a document from a cursor. -/
def Reader (α : Type) := Cursor → Outcome α

variable {α β : Type}

/-- Takes the next token. A character that begins no token is rejected as soon as it is taken. -/
def nextToken : Reader Token := fun cursor =>
  match cursor.held with
  | token :: held => .found token ⟨held, cursor.ahead⟩
  | [] =>
    match cursor.ahead with
    | [] => .rejected .exhausted cursor
    | token :: ahead =>
      if token.kind = .error then .rejected (.illegal token) ⟨[], ahead⟩
      else .found token ⟨[], ahead⟩

namespace Reader

/-- Finds the value without taking anything. -/
def found (value : α) : Reader α := fun cursor => .found value cursor

/-- Reads a second part that depends on the first. -/
def andThen (first : Reader α) (second : α → Reader β) : Reader β := fun cursor =>
  match first cursor with
  | .found value rest => second value rest
  | .absent rest => .absent rest
  | .rejected cause rest => .rejected cause rest

instance : Monad Reader where
  pure := found
  bind := andThen

/-- Tries the second way where the first finds nothing. -/
def orElse (first second : Reader α) : Reader α := fun cursor =>
  match first cursor with
  | .found value rest => .found value rest
  | .absent rest => second rest
  | .rejected cause rest => .rejected cause rest

def optional (part : Reader α) : Reader (Option α) := fun cursor =>
  match part cursor with
  | .found value rest => .found (some value) rest
  | .absent rest => .found none rest
  | .rejected cause rest => .rejected cause rest

/-- Rejects the next token while the production is being read. -/
def reject (production : Production) : Reader α :=
  nextToken.andThen fun token rest => .rejected (.unexpected token production) rest

/-- A part that has to be there once the production has begun. -/
def required (part : Reader α) (production : Production) : Reader α :=
  part.orElse (reject production)

/-- Reads parts for as long as they are found, at most as many as the bound. -/
def rowUpTo (part : Reader α) : Nat → Reader (List α)
  | 0 => fun cursor => .rejected .exhausted cursor
  | bound + 1 => fun cursor =>
    match part cursor with
    | .found value rest =>
      match rowUpTo part bound rest with
      | .found values rest => .found (value :: values) rest
      | .absent rest => .absent rest
      | .rejected cause rest => .rejected cause rest
    | .absent rest => .found [] rest
    | .rejected cause rest => .rejected cause rest

/-- A row of parts, which may be empty. A part takes a token at least, so the pending tokens bound
the row. -/
def row (part : Reader α) : Reader (List α) := fun cursor =>
  part.rowUpTo (cursor.pending.length + 1) cursor

/-- A row of at least one part. -/
def row1 (part : Reader α) : Reader (List α) := do
  let first ← part
  let others ← part.row
  pure (first :: others)

/-- A part that may contain itself. The pending tokens bound the depth, since every level takes a
token before it goes down. -/
def nested (part : Nat → Reader α) : Reader α := fun cursor =>
  part (cursor.pending.length + 1) cursor

/-- The reader at the bottom of the bounded depth. -/
def bottom : Reader α := fun cursor => .rejected .exhausted cursor

end Reader

/-- Takes the text of the next token if the token is as wanted, and hands it back otherwise. -/
def tokenIf (wanted : Token → Bool) : Reader String := fun cursor =>
  match nextToken cursor with
  | .found token rest =>
    if wanted token then .found token.text rest else .absent (rest.handBack token)
  | .absent rest => .absent rest
  | .rejected cause rest => .rejected cause rest

def token (kind : Kind) : Reader String := tokenIf fun token => token.kind == kind

def delimiter (text : String) : Reader String :=
  tokenIf fun token => token.kind == .delimiter && token.text == text

end Reading
end GrammarBook
