import GrammarBook.Settings.Basic

namespace GrammarBook
namespace Settings

/-!
# Values of settings files

The formats of settings files differ in what their scalars may be read as. A scalar therefore
carries its readings: as a count, as a text, as both or as neither. A section is a table with its
fields by name, or a list of all its fields in order. Other names in a table are of no interest,
but a field may not be given twice.
-/

/-- A value in a settings file. A blank is an empty text, and a table without entries too. A number
out of range may not even be passed over. A list that is open may hold more than is asked of it. -/
inductive Value where
  | null
  | blank
  | outOfRange
  | scalar (count : Option Nat) (text : Option String)
  | list (isOpen : Bool) (items : List Value)
  | table (entries : List (String × Value))
  deriving Repr, Inhabited

namespace Value

/-- A scalar that is neither a count nor a text. -/
def other : Value := scalar none none

/-- A table whose names have been read. If one of them could not be, the whole has no reading. -/
def ofEntries (entries : List (Option String × Value)) : Value :=
  match entries.mapM fun entry => entry.1.map fun name => (name, entry.2) with
  | some entries => table entries
  | none => other

/-- The value of a field in a table, null where there is none. A field given twice has no value. -/
def fieldOf (entries : List (String × Value)) (name : String) : Option Value :=
  match entries.filter (·.1 == name) with
  | [] => some null
  | [entry] => some entry.2
  | _ => none

mutual

/-- No number in a value is out of range. -/
def isInRange : Value → Bool
  | outOfRange => false
  | list _ items => itemsInRange items
  | table entries => entriesInRange entries
  | _ => true

/-- No number in the items of a list is out of range. -/
def itemsInRange : List Value → Bool
  | [] => true
  | item :: others => item.isInRange && itemsInRange others

/-- No number in the entries of a table is out of range. -/
def entriesInRange : List (String × Value) → Bool
  | [] => true
  | (_, value) :: others => value.isInRange && entriesInRange others

end

/-- The values of the named fields. The other entries of a table are passed over. -/
def fields? (names : List String) : Value → Option (List Value)
  | blank => names.mapM (fieldOf [])
  | table entries =>
    if entriesInRange (entries.filter fun entry => !names.contains entry.1) then
      names.mapM (fieldOf entries)
    else none
  | list isOpen items =>
    if items.length = names.length ∨ (isOpen ∧ names.length ≤ items.length) then
      some (items.take names.length)
    else none
  | _ => none

/-- A value that may be null, read in the given way otherwise. -/
def optional? {α : Type} (read : Value → Option α) : Value → Option (Option α)
  | null => some none
  | value => (read value).map some

def count? : Value → Option Nat
  | scalar count _ => count
  | _ => none

def text? : Value → Option String
  | blank => some ""
  | scalar _ text => text
  | _ => none

/-- The only field of a section, which may be null. -/
def onlyField? {α : Type} (name : String) (read : Value → Option α) (value : Value) :
    Option (Option α) :=
  match value.fields? [name] with
  | some [field] => optional? read field
  | _ => none

end Value

/-- The settings that a value describes. -/
def ofValue? (value : Value) : Option Settings :=
  match value.fields? ["scanner", "formatter", "analyzer"] with
  | some [scanner, formatter, analyzer] => do
    let scanner ← scanner.optional? (Value.onlyField? "queueCapacity" Value.count?)
    let formatter ← formatter.optional? (Value.onlyField? "indentSize" Value.count?)
    let analyzer ← analyzer.optional? (Value.onlyField? "delimiterName" Value.text?)
    pure ⟨scanner.map (⟨·⟩), formatter.map (⟨·⟩), analyzer.map (⟨·⟩)⟩
  | _ => none

end Settings
end GrammarBook
