namespace GrammarBook
namespace Text

/-!
# Counts

A count is written in decimal digits, optionally after a plus sign, and fits into 64 bits.
-/

/-- The first number that is too large for a count. -/
def countLimit : Nat := Nat.pow 2 64

/-- An ASCII digit. -/
def isDecimal (c : Char) : Bool := '0' ≤ c && c ≤ '9'

/-- The number that a row of decimal digits writes. -/
def decimalValue (digits : List Char) : Nat :=
  digits.foldl (fun value digit => 10 * value + (digit.toNat - '0'.toNat)) 0

/-- The text without one leading plus sign. -/
def dropPlus : List Char → List Char
  | '+' :: rest => rest
  | text => text

/-- The count a text writes, if it writes one. -/
def readCount (text : String) : Option Nat :=
  let digits := dropPlus text.toList
  if digits.isEmpty || !digits.all isDecimal then none
  else if decimalValue digits < countLimit then some (decimalValue digits)
  else none

theorem readCount_lt {text : String} {count : Nat} (read : readCount text = some count) :
    count < countLimit := by
  simp only [readCount] at read
  split at read
  · exact absurd read (by simp)
  · split at read
    · simp_all
    · exact absurd read (by simp)

end Text
end GrammarBook
