import GrammarBook.Analysis.Cycle
import GrammarBook.Fault

namespace GrammarBook
namespace FragmentTable

/-!
# Resolving references

All references are replaced at once: an undefined name is reported before a circle of references,
and without either the expressions are compiled one after the other, those that are referred to
before those that refer to them.
-/

/-- The members of a circle with the first repeated at the end. -/
def closedCircle (names : List String) : List String := names ++ names.take 1

/-- The text of a fragment, with what has been compiled for a reference. -/
def compileFragment (compiled : NameTable String) (name : String) : Fragment → Except Fault String
  | .text text => .ok text
  | .reference target =>
    match compiled.get? target with
    | some regex => .ok regex
    | none => .error (.internal (.notCompiled target name))

/-- Compiles a name after those that its expression refers to. -/
def compileName (table : FragmentTable) (compiled : NameTable String) (name : String) :
    Except Fault (NameTable String) := do
  let pieces ← ((table.get? name).getD []).mapM (compileFragment compiled name)
  pure (compiled.put name (String.join pieces))

/-- The names in an order in which each stands before its users, if there are no circles: a search
finishes the users of a name before the name. -/
def compileOrder (table : FragmentTable) : List String := table.finishOrder.reverse

/-- The regular expressions of all names, or why there are none. -/
def resolve (table : FragmentTable) : Except Fault (NameTable String) :=
  match table.firstUndefined? with
  | some name => .error (.semantic (.expressionUndefined name))
  | none =>
    match table.cycle? with
    | some names => .error (.semantic (.circular (closedCircle names)))
    | none => do
      let compiled ← table.compileOrder.foldlM table.compileName NameTable.empty
      pure (table.mapEntries fun name _ => (compiled.get? name).getD "")

end FragmentTable
end GrammarBook
