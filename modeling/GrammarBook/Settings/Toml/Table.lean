import GrammarBook.Settings.Value

namespace GrammarBook
namespace Settings
namespace TomlFormat

/-!
# Tables of TOML texts

A table comes to be by its own header, by the header of a table in it, or by a dotted name. A dotted
name adds to a table of the last kind, and only one of the second may still get a header of its own.
Nothing is given twice.
-/

/-- How a table came to be. -/
inductive Origin where
  | header
  | path
  | dotted
  deriving DecidableEq, Repr

/-- What stands under a name. Tables with doubled brackets are repeated; the last of them is the one
that is added to. -/
inductive Item where
  | value (value : Value)
  | table (origin : Origin) (entries : List (String × Item))
  | tables (earlier : List (List (String × Item))) (last : List (String × Item))
  deriving Inhabited

/-- The entries of a table. -/
abbrev Entries := List (String × Item)

/-- What stands under a name in a table. -/
def find? (entries : Entries) (name : String) : Option Item :=
  (entries.find? (·.1 == name)).map (·.2)

/-- The table with something under a name, in place of what stood there. -/
def put (entries : Entries) (name : String) (item : Item) : Entries :=
  if (find? entries name).isSome then
    entries.map fun entry => if entry.1 = name then (name, item) else entry
  else entries ++ [(name, item)]

/-- Changes the table that the path of a header leads to. Tables on the way that are not there come
to be by the path. -/
def within (change : Entries → Option Entries) : List String → Entries → Option Entries
  | [], entries => change entries
  | name :: path, entries =>
    match find? entries name with
    | none => (within change path []).map fun inner => put entries name (.table .path inner)
    | some (.table origin inner) =>
      (within change path inner).map fun inner => put entries name (.table origin inner)
    | some (.tables earlier last) =>
      (within change path last).map fun last => put entries name (.tables earlier last)
    | some (.value _) => none

/-- Gives a table its header. -/
def open? (name : String) (entries : Entries) : Option Entries :=
  match find? entries name with
  | none => some (put entries name (.table .header []))
  | some (.table .path inner) => some (put entries name (.table .header inner))
  | some _ => none

/-- Adds one more of the tables with a name. -/
def repeat? (name : String) (entries : Entries) : Option Entries :=
  match find? entries name with
  | none => some (put entries name (.tables [] []))
  | some (.tables earlier last) => some (put entries name (.tables (earlier ++ [last]) []))
  | some _ => none

/-- Gives a value to a name, which may be dotted. A table that has its own header is not added to.
Other tables may be on the way, but the last one has to be of a dotted name. -/
def define? (value : Value) : List String → Entries → Option Entries
  | [], _ => none
  | [name], entries =>
    if (find? entries name).isSome then none else some (put entries name (.value value))
  | name :: path, entries =>
    match find? entries name with
    | none => (define? value path []).map fun inner => put entries name (.table .dotted inner)
    | some (.table origin inner) =>
      if origin = .header ∨ (origin = .path ∧ path.length = 1) then none
      else (define? value path inner).map fun inner => put entries name (.table origin inner)
    | some (.tables earlier last) =>
      if path.length = 1 then none
      else (define? value path last).map fun last => put entries name (.tables earlier last)
    | some (.value _) => none

mutual

def Item.toValue : Item → Value
  | .value value => value
  | .table _ entries => .table (entriesToValues entries)
  | .tables earlier last =>
    .list true (tablesToValues earlier ++ [.table (entriesToValues last)])

def entriesToValues : List (String × Item) → List (String × Value)
  | [] => []
  | (name, item) :: others => (name, item.toValue) :: entriesToValues others

def tablesToValues : List (List (String × Item)) → List Value
  | [] => []
  | entries :: others => .table (entriesToValues entries) :: tablesToValues others

end

end TomlFormat
end Settings
end GrammarBook
