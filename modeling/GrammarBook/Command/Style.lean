namespace GrammarBook
namespace Command

/-!
# Styles

Words that a reader of the output should see at once may be set off by color or weight, for
terminals. Output that is not for a terminal is plain.
-/

/-- The ways to set off a word. -/
inductive Style where
  | success
  | change
  | failure
  | heading
  | alarm
  deriving DecidableEq, Repr

def Style.attributes : Style → String
  | success => "32"
  | change => "33"
  | failure => "31"
  | heading => "1"
  | alarm => "1;31"

/-- The terminal sequence that sets attributes. -/
def terminalSequence (attributes : String) : String :=
  String.ofList [Char.ofNat 0x1B, '['] ++ attributes ++ "m"

/-- The word in a style, or as it is where output is plain. -/
def Style.mark (style : Style) (isPlain : Bool) (word : String) : String :=
  if isPlain then word
  else terminalSequence style.attributes ++ word ++ terminalSequence "0"

end Command
end GrammarBook
