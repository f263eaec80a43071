namespace GrammarBook
namespace Text

/-!
# Columns

Texts and numbers brought to a least width. What is already wider stays as it is.
-/

/-- The decimal digits of a number with zeros in front up to the given width. -/
def zeroPadded (width : Nat) (number : Nat) : String :=
  let digits := Nat.toDigits 10 number
  String.ofList (List.replicate (width - digits.length) '0' ++ digits)

/-- The text with blanks in front up to the given width. -/
def alignRight (width : Nat) (text : String) : String :=
  String.ofList (List.replicate (width - text.length) ' ') ++ text

/-- The text with blanks behind up to the given width. -/
def alignLeft (width : Nat) (text : String) : String :=
  text ++ String.ofList (List.replicate (width - text.length) ' ')

end Text
end GrammarBook
