import GrammarBook.Fault

namespace GrammarBook
namespace Command

/-!
# Troubles

What ends a command before its work is done. A document that is faulty does not: the command reports
it and goes on with the next one.
-/

/-- The reasons to end a command early. -/
inductive Trouble where
  | nothingAt (path : String)
  | unreadable (path : String) (problem : FileProblem)
  | unwritable (path : String) (problem : FileProblem)
  | invalid (path : String) (fault : Fault)
  | unprocessable (path : String) (fault : Fault)
  | faulty (fault : Fault)
  deriving DecidableEq, Repr

def Trouble.message : Trouble → String
  | nothingAt path => "Path not found: " ++ path
  | unreadable path problem => "Failed to read " ++ path ++ ": " ++ problem.message
  | unwritable path problem => "Failed to write " ++ path ++ ": " ++ problem.message
  | invalid path fault => path ++ " is not a valid document: " ++ fault.message
  | unprocessable path fault => "Failed to process " ++ path ++ ": " ++ fault.message
  | faulty fault => fault.message

end Command
end GrammarBook
