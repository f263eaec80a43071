import GrammarBook.Command.Format
import GrammarBook.Command.Inspect
import GrammarBook.Release

namespace GrammarBook
namespace Command

/-!
# Running a command line

A run ends with a number: zero if all is as it should be, one if not, two if the command line was
refused.
-/

variable {m : Type → Type} [Monad m] [Host m]

def versionText : String := programName ++ " " ++ version

def usageText : String :=
  "Usage: " ++ programName ++ " [options] <command>\n\n" ++
    "  fmt [--write | --check] [--indent-size <number>] [<path>...]\n" ++
    "  validate [<path>...]\n" ++
    "  analyze [--json] <path>\n" ++
    "  tokens <path>\n\n" ++
    "Options: --config <path>, --verbose, --no-color, --help, --version"

/-- Does the work that a line asks for; says whether all is as it should be. -/
def perform (isPlain : Bool) (line : Line) : Work m Bool :=
  match line.task with
  | .format paths destination indentSize =>
    formatPaths line.settings isPlain paths destination indentSize
  | .validate paths => validatePaths line.settings isPlain paths
  | .analyze path asJson => analyzePath line.settings isPlain path asJson
  | .tokens path => listTokens path

/-- Runs a command line. Output is plain if the line or the surroundings ask for it. -/
def run (wantsPlain : Bool) (arguments : List String) : m Nat := do
  match Line.read arguments with
  | .error .help => Host.printLine usageText; return 0
  | .error .version => Host.printLine versionText; return 0
  | .error .refused => Host.complainLine usageText; return 2
  | .ok line =>
    let isPlain := wantsPlain || line.isPlain
    match ← (perform isPlain line).run with
    | .ok isFine => return if isFine then 0 else 1
    | .error trouble =>
      Host.complainLine (Style.alarm.mark isPlain "error:" ++ " " ++ trouble.message)
      return 1

end Command
end GrammarBook
