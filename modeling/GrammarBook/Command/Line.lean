import GrammarBook.Command.Flag

namespace GrammarBook
namespace Command

/-!
# Command lines

A command line is read from left to right, first up to the name of a command, then behind it. What
is wrong with an argument counts before what stands behind it; only what is wrong with the
arguments taken together counts last. Asking for help or for the version ends the reading.
-/

/-- Why a command line asks for no work. -/
inductive Ending where
  | help
  | version
  | refused
  deriving DecidableEq, Repr

/-- What is given at one level of a command line. -/
structure Given where
  flags : List (Flag × String) := []
  paths : List String := []
  deriving DecidableEq, Repr

namespace Given

def has (given : Given) (flag : Flag) : Bool := given.flags.any (·.1 = flag)

def value? (given : Given) (flag : Flag) : Option String :=
  (given.flags.find? (·.1 = flag)).map (·.2)

/-- Adds an option without a value. Help and version end the reading here. -/
def addFlag (given : Given) (flag : Flag) : Except Ending Given :=
  if flag = .help then .error .help
  else if flag = .version then .error .version
  else if given.has flag ∧ ¬ flag.isRepeatable then .error .refused
  else .ok { given with flags := (flag, "") :: given.flags }

def addValue (given : Given) (flag : Flag) (value : String) : Except Ending Given :=
  if given.has flag ∨ ¬ flag.acceptsValue value then .error .refused
  else .ok { given with flags := (flag, value) :: given.flags }

def addPath (command : Option Name) (given : Given) (path : String) : Except Ending Given :=
  match command with
  | none => .error .refused
  | some name =>
    if path = "" ∨ name.mostPaths?.any (· ≤ given.paths.length) then .error .refused
    else .ok { given with paths := given.paths ++ [path] }

end Given

/-- An argument that is an option, or none that is known. A lone hyphen is a path. -/
def looksLikeFlag (argument : String) : Bool := argument.startsWith "-" && argument ≠ "-"

/-- A name with the value attached to it by an equals sign, if there is one. -/
def splitValue (text : List Char) : String × Option String :=
  match text.span (· ≠ '=') with
  | (name, _ :: value) => (String.ofList name, some (String.ofList value))
  | (name, []) => (String.ofList name, none)

/-- What an argument with options adds. Its last option may still await a value, which is then the
next argument. -/
structure Added where
  given : Given
  awaiting : Option Flag := none

/-- Adds an option that is given by its name. -/
def addNamed (command : Option Name) (given : Given) (text : List Char) : Except Ending Added :=
  let (name, value) := splitValue text
  match Flag.ofName? command name, value with
  | none, _ => .error .refused
  | some flag, none =>
    if flag.takesValue then .ok ⟨given, some flag⟩ else (given.addFlag flag).map ({ given := · })
  | some flag, some value =>
    if flag.takesValue then (given.addValue flag value).map ({ given := · }) else .error .refused

/-- The value attached to a letter, with or without an equals sign. -/
def attachedValue : List Char → String
  | '=' :: value => String.ofList value
  | value => String.ofList value

/-- Adds options that are given by their letters in one argument. -/
def addLetters (command : Option Name) (given : Given) : List Char → Except Ending Added
  | [] => .ok { given }
  | letter :: others =>
    match Flag.ofLetter? command letter with
    | none => .error .refused
    | some flag =>
      if flag.takesValue then
        if others.isEmpty then .ok ⟨given, some flag⟩
        else (given.addValue flag (attachedValue others)).map ({ given := · })
      else do addLetters command (← given.addFlag flag) others

/-- Adds an argument that looks like an option. -/
def addArgument (command : Option Name) (given : Given) (argument : String) :
    Except Ending Added :=
  match argument.toList with
  | '-' :: '-' :: text => addNamed command given text
  | _ :: letters => addLetters command given letters
  | [] => .error .refused

/-- Reads the arguments behind the name of a command, or before it up to the name. A double hyphen
makes all that follows paths. -/
def readLevel (command : Option Name) (given : Given) :
    List String → Except Ending (Given × Option (Name × List String))
  | [] => .ok (given, none)
  | argument :: others =>
    if argument = "--" then do
      pure (← others.foldlM (Given.addPath command) given, none)
    else if looksLikeFlag argument then do
      let added ← addArgument command given argument
      match added.awaiting, others with
      | none, others => readLevel command added.given others
      | some _, [] => .error .refused
      | some flag, value :: others => do
        if looksLikeFlag value then .error .refused
        else readLevel command (← added.given.addValue flag value) others
    else
      match command, Name.ofText? argument with
      | none, some name => .ok (given, some (name, others))
      | none, none =>
        if argument = "help" then .error (helpEnding others) else .error .refused
      | some name, _ => do readLevel name (← given.addPath (some name) argument) others
where
  /-- Help is given on the whole or on one command. -/
  helpEnding : List String → Ending
    | [] => .help
    | [name] => if name = "help" ∨ (Name.ofText? name).isSome then .help else .refused
    | _ => .refused

/-- What becomes of formatted documents. -/
inductive Destination where
  | output
  | file
  | nowhere
  deriving DecidableEq, Repr

/-- The work that a command line asks for. -/
inductive Task where
  | format (paths : List String) (destination : Destination) (indentSize : Option Nat)
  | validate (paths : List String)
  | analyze (path : String) (asJson : Bool)
  | tokens (path : String)
  deriving DecidableEq, Repr

/-- A task with the options that belong to every task. -/
structure Line where
  task : Task
  settings : Option String := none
  isPlain : Bool := false
  deriving DecidableEq, Repr

/-- The paths of a command that works on the current directory where none are given. -/
def pathsOrHere (paths : List String) : List String := if paths.isEmpty then ["."] else paths

/-- What becomes of formatted documents; they cannot be written and only be checked. -/
def destinationOf (given : Given) : Except Ending Destination :=
  match given.has .write, given.has .check with
  | true, true => .error .refused
  | true, false => .ok .file
  | false, true => .ok .nowhere
  | false, false => .ok .output

def onlyPath (given : Given) : Except Ending String :=
  match given.paths with
  | [path] => .ok path
  | _ => .error .refused

/-- The task that is given behind the name of a command. -/
def taskOf (given : Given) : Name → Except Ending Task
  | .format => do
    pure (.format (pathsOrHere given.paths) (← destinationOf given)
      ((given.value? .indentSize).bind Text.readCount))
  | .validate => .ok (.validate (pathsOrHere given.paths))
  | .analyze => do pure (.analyze (← onlyPath given) (given.has .json))
  | .tokens => do pure (.tokens (← onlyPath given))

/-- Reads a command line. An option of every command given at both levels has the value given behind
the name of the command. -/
def Line.read (arguments : List String) : Except Ending Line := do
  match ← readLevel none {} arguments with
  | (_, none) => .error .refused
  | (outer, some (name, others)) => do
    let (inner, _) ← readLevel (some name) {} others
    pure
      { task := ← taskOf inner name
        settings := (inner.value? .settings).or (outer.value? .settings)
        isPlain := inner.has .plain || outer.has .plain }

end Command
end GrammarBook
