import GrammarBook.Settings.Value

namespace GrammarBook
namespace Settings
namespace TomlFormat

/-!
# Words of TOML texts

Numbers, truth values, dates and times are words without blanks, except that a date may be parted
from its time by one. Digits may be grouped by single underscores.
-/

def isWordChar (c : Char) : Bool :=
  c.isAlphanum || c == '_' || c == '+' || c == '-' || c == '.' || c == ':'

/-! ## Numbers -/

/-- The digits of a number without the underscores between them. -/
def plainDigits? (isDigit : Char → Bool) : List Char → Option (List Char)
  | [] => none
  | [c] => if isDigit c then some [c] else none
  | c :: '_' :: rest => if isDigit c then (plainDigits? isDigit rest).map (c :: ·) else none
  | c :: rest => if isDigit c then (plainDigits? isDigit rest).map (c :: ·) else none

/-- The value of a digit in any base up to sixteen. -/
def digitValue (c : Char) : Nat :=
  if Text.isDecimal c then c.toNat - '0'.toNat else c.toLower.toNat - 'a'.toNat + 10

def isDigitOf (base : Nat) (c : Char) : Bool := c.isAlphanum && digitValue c < base

def valueOf (base : Nat) (digits : List Char) : Nat :=
  digits.foldl (fun value digit => base * value + digitValue digit) 0

/-- A number with its sign, which has to fit into 128 bits. It is a count if it is not negative and
fits into 64. -/
def integer (isNegative : Bool) (value : Nat) : Value :=
  if (if isNegative then Nat.pow 2 127 < value else Nat.pow 2 128 ≤ value) then .outOfRange
  else if isNegative ∧ value ≠ 0 ∨ Text.countLimit ≤ value then .other
  else .scalar (some value) none

/-- An integer in another base than ten. -/
def based? (base : Nat) (digits : List Char) : Option Value := do
  pure (integer false (valueOf base (← plainDigits? (isDigitOf base) digits)))

/-- The digits of an integer in base ten; no zero stands before others. -/
def decimalDigits? (text : List Char) : Option (List Char) := do
  let digits ← plainDigits? Text.isDecimal text
  if digits.head? = some '0' ∧ digits.length ≠ 1 then none else pure digits

/-- A word without one leading sign, and whether it was a minus. -/
def splitSign : List Char → Bool × List Char
  | '-' :: rest => (true, rest)
  | '+' :: rest => (false, rest)
  | text => (false, text)

/-- An exponent with its mark, or nothing. -/
def exponent? : List Char → Option Int
  | [] => some 0
  | mark :: rest =>
    if mark = 'e' ∨ mark = 'E' then do
      let (isNegative, text) := splitSign rest
      let value := valueOf 10 (← plainDigits? Text.isDecimal text)
      pure (if isNegative then -(value : Int) else value)
    else none

/-- The digits behind the point and the exponent of a number with either. -/
def fraction? : List Char → Option (List Char × Int)
  | '.' :: rest => do
    let (digits, rest) := rest.span fun c => Text.isDecimal c || c == '_'
    pure (← plainDigits? Text.isDecimal digits, ← exponent? rest)
  | text => do pure ([], ← exponent? text)

/-- The first number that has no neighbour among the floating point numbers of 64 bits: half a step
above the largest of them. -/
def floatLimit : Nat := Nat.pow 2 1024 - Nat.pow 2 970

/-- The number of digits of a number other than zero. -/
def digitCount (value : Nat) : Nat := (Nat.toDigits 10 value).length

/-- A number times a power of ten is too large for floating point numbers of 64 bits. Only numbers
with as many digits as the limit have to be compared with it. -/
def isTooLarge (value : Nat) (exponent : Int) : Bool :=
  let size := digitCount value + exponent
  if value = 0 ∨ size < digitCount floatLimit then false
  else if digitCount floatLimit < size then true
  else if 0 ≤ exponent then floatLimit ≤ value * Nat.pow 10 exponent.toNat
  else floatLimit * Nat.pow 10 (-exponent).toNat ≤ value

/-- A number in base ten. -/
def decimal? (text : List Char) : Option Value := do
  let (isNegative, body) := splitSign text
  if body = "inf".toList ∨ body = "nan".toList then return .other
  let (front, rest) := body.span fun c => Text.isDecimal c || c == '_'
  let digits ← decimalDigits? front
  if rest.isEmpty then return integer isNegative (valueOf 10 digits)
  let (others, exponent) ← fraction? rest
  let isOut := isTooLarge (valueOf 10 (digits ++ others)) (exponent - others.length)
  return if isOut then .outOfRange else .other

def number? : List Char → Option Value
  | '0' :: 'x' :: digits => based? 16 digits
  | '0' :: 'o' :: digits => based? 8 digits
  | '0' :: 'b' :: digits => based? 2 digits
  | text => decimal? text

/-! ## Dates and times -/

/-- The number of as many digits as are asked for, with the rest. -/
def fixed? (count : Nat) (text : List Char) : Option (Nat × List Char) :=
  let digits := text.take count
  if digits.length = count ∧ digits.all Text.isDecimal then
    some (Text.decimalValue digits, text.drop count)
  else none

def mark? (mark : Char) : List Char → Option (List Char)
  | [] => none
  | c :: rest => if c = mark then some rest else none

/-- The days of a month. -/
def daysOf (year month : Nat) : Nat :=
  if month = 2 then if year % 4 = 0 ∧ (year % 100 ≠ 0 ∨ year % 400 = 0) then 29 else 28
  else if month = 4 ∨ month = 6 ∨ month = 9 ∨ month = 11 then 30
  else 31

def date? (text : List Char) : Option (List Char) := do
  let (year, text) ← fixed? 4 text
  let (month, text) ← fixed? 2 (← mark? '-' text)
  let (day, text) ← fixed? 2 (← mark? '-' text)
  if 1 ≤ month ∧ month ≤ 12 ∧ 1 ≤ day ∧ day ≤ daysOf year month then pure text else none

def hourMinute? (text : List Char) : Option (List Char) := do
  let (hour, text) ← fixed? 2 text
  let (minute, text) ← fixed? 2 (← mark? ':' text)
  if hour ≤ 23 ∧ minute ≤ 59 then pure text else none

/-- The rest behind the fraction of a second, if there is one. -/
def secondFraction? : List Char → Option (List Char)
  | '.' :: text =>
    let (digits, rest) := text.span Text.isDecimal
    if digits.isEmpty then none else some rest
  | text => some text

/-- The rest behind a time, whose seconds may be left out. -/
def time? (text : List Char) : Option (List Char) := do
  match ← hourMinute? text with
  | ':' :: text =>
    let (second, text) ← fixed? 2 text
    if second ≤ 60 then secondFraction? text else none
  | text => pure text

/-- The rest behind the distance to universal time, if there is one. -/
def offset? : List Char → Option (List Char)
  | 'Z' :: rest | 'z' :: rest => some rest
  | '+' :: rest | '-' :: rest => hourMinute? rest
  | text => some text

/-- A word is a time, possibly with its distance to universal time. -/
def isTimeOfDate (text : List Char) : Bool := ((time? text).bind offset?) == some []

def isMoment (text : List Char) : Bool :=
  match date? text with
  | some [] => true
  | some ('T' :: rest) | some ('t' :: rest) => isTimeOfDate rest
  | some _ => false
  | none => time? text == some []

/-- A date or a time is a table that has none of the fields asked for. -/
def moment : Value := .table []

/-! ## Words -/

/-- The value that a word writes. -/
def ofWord? (word : List Char) : Option Value :=
  if word = "true".toList ∨ word = "false".toList then some .other
  else if isMoment word then some moment
  else number? word

/-- The next word. A date takes a time behind a blank with it. -/
def word? (text : List Char) : Option (Value × List Char) := do
  let (word, rest) := text.span isWordChar
  match date? word, rest with
  | some [], ' ' :: c :: behind =>
    if Text.isDecimal c then
      let (time, rest) := (c :: behind).span isWordChar
      if isTimeOfDate time then pure (moment, rest) else none
    else pure (moment, rest)
  | _, _ => pure (← ofWord? word, rest)

end TomlFormat
end Settings
end GrammarBook
