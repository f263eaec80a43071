import GrammarBook.Analysis.Fragment

namespace GrammarBook
namespace FragmentTable

/-!
# Circular references

Expressions that reach each other through references form a component. A component is cyclic when
it has several members or its only one refers to itself. Of several cyclic components the one reported
is the one that a depth-first search along the uses of names finishes first: the search starts from
each name in the order of the table and goes to the latest use first.
-/

/-- The names whose expressions refer to the given one, the latest use first. -/
def users (table : FragmentTable) (name : String) : List String :=
  (table.entries.flatMap fun entry =>
    ((targets entry.2).filter (· == name)).map fun _ => entry.1).reverse

/-- A name with the names reached so far. -/
def addName (names : List String) (name : String) : List String :=
  if name ∈ names then names else names ++ [name]

/-- The names with all that their members' expressions refer to. -/
def oneRound (table : FragmentTable) (names : List String) : List String :=
  (names.flatMap fun name => targets ((table.get? name).getD [])).foldl addName names

/-- The names reached from the given ones in at most the given number of rounds. A round that comes
to no new name is the last. -/
def closure (table : FragmentTable) : Nat → List String → List String
  | 0, names => names
  | rounds + 1, names =>
    let next := oneRound table names
    if next.length = names.length then names else closure table rounds next

/-- The names that an expression reaches through one or more references. -/
def reached (table : FragmentTable) (name : String) : List String :=
  closure table table.size (targets ((table.get? name).getD []))

/-- Each of two names reaches the other, or they are one. -/
def areConnected (table : FragmentTable) (left right : String) : Bool :=
  left == right || ((table.reached left).contains right && (table.reached right).contains left)

/-- The members of the component of a name, in the order of the table. -/
def component (table : FragmentTable) (name : String) : List String :=
  table.keys.filter (table.areConnected name)

/-- The component has several members, or its only one refers to itself. -/
def isCyclic (table : FragmentTable) (component : List String) : Bool :=
  1 < component.length ||
    component.head?.any fun name => (targets ((table.get? name).getD [])).contains name

/-- The names a search has come to, and those it has finished in that order. -/
structure Search where
  seen : List String := []
  finished : List String := []

/-- Searches from a name and finishes it after its users. Every step down comes to a new name, so
the number of names bounds the depth. -/
def searchFrom (table : FragmentTable) : Nat → Search → String → Search
  | 0, search, _ => search
  | depth + 1, search, name =>
    if name ∈ search.seen then search
    else
      let search := (table.users name).foldl (searchFrom table depth)
        { search with seen := name :: search.seen }
      { search with finished := search.finished ++ [name] }

/-- The names in the order in which the search finishes them. -/
def finishOrder (table : FragmentTable) : List String :=
  (table.keys.foldl (searchFrom table (table.size + 1)) {}).finished

/-- The first cyclic component whose last member is finished. -/
def firstCycleIn (table : FragmentTable) : List String → Option (List String)
  | [] => none
  | name :: later =>
    if table.isCyclic (table.component name) ∧
        later.all (fun other => !table.areConnected name other) then
      some (table.component name)
    else firstCycleIn table later

/-- The members of the reported cyclic component, in ascending order. -/
def cycle? (table : FragmentTable) : Option (List String) :=
  (table.firstCycleIn table.finishOrder).map (·.mergeSort (· ≤ ·))

end FragmentTable
end GrammarBook
