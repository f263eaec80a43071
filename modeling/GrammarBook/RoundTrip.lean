import GrammarBook.Layout
import GrammarBook.Reading.Parser
import GrammarBook.Validator

namespace GrammarBook

/-!
# Round trips

A round trip formats a source, reads the result and formats it again. The source is canonical when
the first formatting gives it back, and formatting is idempotent on it when the second changes
nothing more.
-/

/-- The texts of a round trip. -/
structure RoundTrip where
  original : String
  formatted : String
  reformatted : String
  deriving DecidableEq, Repr

namespace RoundTrip

/-- The source is its own canonical text. -/
def isCanonical (trip : RoundTrip) : Bool := trip.original == trip.formatted

/-- Formatting again changes nothing. -/
def isIdempotent (trip : RoundTrip) : Bool := trip.formatted == trip.reformatted

/-- The first place at which two texts differ, when they have agreed up to the given place. -/
def differenceFrom (place : Location) : List Char → List Char → Option Location
  | [], [] => none
  | a :: left, b :: right => if a = b then differenceFrom (place.step a) left right else some place
  | _, _ => some place

/-- The first place at which two texts differ. -/
def difference (left right : String) : Option Location :=
  differenceFrom .start left.toList right.toList

/-- The first place at which the source differs from its canonical text, or, where they agree, that
text from its own canonical text. -/
def firstDifference (trip : RoundTrip) : Option Location :=
  if trip.isCanonical then difference trip.formatted trip.reformatted
  else difference trip.original trip.formatted

/-- The round trip of a source that can be read and is valid. -/
def check (parser : Parser) (formatter : Formatter) (source : String) : Except Fault RoundTrip := do
  let document ← parser.parse source
  document.validate
  let (formatted, formatter) := formatter.format document
  let formatted ← formatted
  let reread ← parser.parse formatted
  let reformatted ← (formatter.format reread).1
  pure ⟨source, formatted, reformatted⟩

end RoundTrip

/-- The canonical text of a source that can be read and is valid. -/
def formatSource (source : String) : Except Fault String := do
  let document ← ({} : Parser).parse source
  document.validate
  (({} : Formatter).format document).1

end GrammarBook
