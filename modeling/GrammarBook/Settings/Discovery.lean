import GrammarBook.Files.Host
import GrammarBook.Files.Path
import GrammarBook.Settings.Format

namespace GrammarBook
namespace Settings

/-!
# Finding and loading settings

Settings are loaded from the file that is named, or else from the first settings file found on the
way from a directory up to the root. Finding none is no fault; the defaults then apply.
-/

variable {m : Type → Type} [Monad m] [Host m]

/-- The names of settings files, in the order in which a directory is searched for them. -/
def fileNames : List String :=
  [".cdsnrc.toml", ".cdsnrc.json", "cdsn.yaml", "cdsn.yml", "cdsn.json"]

def load (path : String) : m (Except Fault Settings) := do
  match ← Host.readText path with
  | .error problem => return .error (.file path problem)
  | .ok content => return (read path content).mapError Fault.settings

/-- The settings in a file that was chosen as settings file. -/
def loadChosen (path : String) : m (Except Fault Settings) := do
  return (← load path).mapError (Fault.unloadable path)

/-- The first of the paths at which a file stands. -/
def firstFile? : List String → m (Option String)
  | [] => return none
  | path :: others => do
    if ← Host.isFile path then return some path
    firstFile? others

/-- The settings file nearest to a path. -/
def discover? (start : String) : m (Except Fault (Option String)) := do
  match ← Host.upwards start with
  | .error problem => return .error (.settings (.invalidStart problem))
  | .ok directories =>
    let candidates := directories.flatMap fun directory => fileNames.map (Path.join directory)
    return .ok (← firstFile? candidates)

/-- The settings in the file that is named, or in the nearest one. -/
def obtain (chosen : Option String) (start : String) : m (Except Fault Settings) := do
  match chosen with
  | some path =>
    if (← Host.lookAt? path).isNone then return .error (.settings (.absent path))
    loadChosen path
  | none =>
    match ← discover? start with
    | .error fault => return .error fault
    | .ok none => return .ok {}
    | .ok (some path) => loadChosen path

end Settings
end GrammarBook
