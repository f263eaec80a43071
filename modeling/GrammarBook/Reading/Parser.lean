import GrammarBook.Excerpt
import GrammarBook.Fault
import GrammarBook.Reading.Productions
import GrammarBook.Token.Scan

namespace GrammarBook

/-!
# Parsers

A parser reads a source into a document. How many tokens its queue may hold between scanning and
reading is a matter of memory and shows in no result.
-/

/-- The number of tokens a queue holds unless told otherwise. -/
def defaultQueueCapacity : Nat := 16

theorem defaultQueueCapacity_pos : 0 < defaultQueueCapacity := by decide

/-- A parser with its queue, which holds one token at least. -/
structure Parser where
  queueCapacity : Nat := defaultQueueCapacity
  queueCapacity_pos : 0 < queueCapacity := by exact defaultQueueCapacity_pos

namespace Parser

/-- A parser with a queue of the given capacity, raised to one where it is none. -/
def withQueueCapacity (capacity : Nat) : Parser :=
  ⟨max capacity 1, Nat.lt_of_lt_of_le Nat.zero_lt_one (Nat.le_max_right capacity 1)⟩

def faultOf (source : String) : Reading.Rejection → Fault
  | .illegal token => .lexical token (Token.excerpt source token)
  | .unexpected token production =>
    .syntactic token production.name production.definitionText (Token.excerpt source token)
  | .exhausted => .internal .streamEnded

/-- The document that a source writes. -/
def parse (_ : Parser) (source : String) : Except Fault Document :=
  match Reading.document (.start (Token.scan source)) with
  | .found document _ => .ok document
  | .absent _ => .error (.internal .streamEnded)
  | .rejected cause _ => .error (faultOf source cause)

end Parser
end GrammarBook
