import GrammarBook.Text.Count

namespace GrammarBook
namespace Command

/-!
# Commands and their options

A command line names one command. Some options belong to every command and may also stand before its
name; the others belong to one command.
-/

/-- The commands. -/
inductive Name where
  | format
  | validate
  | analyze
  | tokens
  deriving DecidableEq, Repr

/-- The command with a given name, of which some have two. -/
def Name.ofText? (text : String) : Option Name :=
  if text = "fmt" ∨ text = "format" then some .format
  else if text = "validate" ∨ text = "check" then some .validate
  else if text = "analyze" then some .analyze
  else if text = "tokens" then some .tokens
  else none

/-- The most paths that a command takes, if there is such a number. -/
def Name.mostPaths? : Name → Option Nat
  | format | validate => none
  | analyze | tokens => some 1

/-- The options. -/
inductive Flag where
  | settings
  | verbose
  | plain
  | help
  | version
  | write
  | check
  | indentSize
  | json
  deriving DecidableEq, Repr

namespace Flag

/-- The name of an option, which stands behind two hyphens. -/
def longName : Flag → String
  | settings => "config"
  | verbose => "verbose"
  | plain => "no-color"
  | help => "help"
  | version => "version"
  | write => "write"
  | check => "check"
  | indentSize => "indent-size"
  | json => "json"

/-- The letter of an option, which stands behind one hyphen. -/
def letter? : Flag → Option Char
  | settings => some 'c'
  | verbose => some 'v'
  | help => some 'h'
  | version => some 'V'
  | _ => none

def takesValue : Flag → Bool
  | settings | indentSize => true
  | _ => false

def isRepeatable (flag : Flag) : Bool := flag = verbose

def acceptsValue : Flag → String → Bool
  | settings, value => value ≠ ""
  | indentSize, value => (Text.readCount value).isSome
  | _, _ => false

/-- The options that may stand before the name of a command, or behind it. -/
def available : Option Name → List Flag
  | none => [settings, verbose, plain, help, version]
  | some .format => [settings, verbose, plain, help, write, check, indentSize]
  | some .validate => [settings, verbose, plain, help]
  | some .analyze => [settings, verbose, plain, help, json]
  | some .tokens => [settings, verbose, plain, help]

/-- The available option with a given name. -/
def ofName? (command : Option Name) (name : String) : Option Flag :=
  (available command).find? (·.longName == name)

/-- The available option with a given letter. -/
def ofLetter? (command : Option Name) (letter : Char) : Option Flag :=
  (available command).find? (·.letter? == some letter)

end Flag
end Command
end GrammarBook
