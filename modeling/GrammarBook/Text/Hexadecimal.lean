namespace GrammarBook
namespace Text

/-!
# Hexadecimal digits

Digits of either case, and the code points that they write.
-/

def hexDigit? (c : Char) : Option Nat :=
  if '0' ≤ c ∧ c ≤ '9' then some (c.toNat - '0'.toNat)
  else if 'a' ≤ c ∧ c ≤ 'f' then some (c.toNat - 'a'.toNat + 10)
  else if 'A' ≤ c ∧ c ≤ 'F' then some (c.toNat - 'A'.toNat + 10)
  else none

def hexValue? (digits : List Char) : Option Nat :=
  digits.foldlM (fun value digit => (hexDigit? digit).map (16 * value + ·)) 0

/-- The character at a code point; surrogates are none. -/
def charAt? (code : Nat) : Option Char :=
  if code.isValidChar then some (Char.ofNat code) else none

/-- The character whose code point the next digits write, as many digits as are asked for. -/
def hexChar? (count : Nat) (text : List Char) : Option (Char × List Char) := do
  if text.length < count then failure
  let code ← hexValue? (text.take count)
  pure (← charAt? code, text.drop count)

end Text
end GrammarBook
