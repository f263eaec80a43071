namespace GrammarBook

/-!
# Tables by name

A table gives values to names. It keeps the order in which the names were first entered; a name
that is entered again keeps its place and takes the new value.
-/

variable {α β : Type}

def putEntry (name : String) (value : α) : List (String × α) → List (String × α)
  | [] => [(name, value)]
  | (other, old) :: others =>
    if other = name then (other, value) :: others else (other, old) :: putEntry name value others

theorem mem_keys_putEntry {name member : String} {value : α} {entries : List (String × α)} :
    member ∈ (putEntry name value entries).map (·.1) ↔
      member = name ∨ member ∈ entries.map (·.1) := by
  induction entries with
  | nil => simp [putEntry]
  | cons entry others ih =>
    obtain ⟨other, old⟩ := entry
    simp only [putEntry]
    split
    · rename_i same
      simp [same]
    · simp only [List.map_cons, List.mem_cons, ih]
      grind

theorem nodup_keys_putEntry {name : String} {value : α} {entries : List (String × α)}
    (distinct : (entries.map (·.1)).Nodup) : ((putEntry name value entries).map (·.1)).Nodup := by
  induction entries with
  | nil => simp [putEntry]
  | cons entry others ih =>
    obtain ⟨other, old⟩ := entry
    rw [List.map_cons, List.nodup_cons] at distinct
    simp only [putEntry]
    split
    · exact List.nodup_cons.2 distinct
    · rename_i different
      refine List.nodup_cons.2 ⟨fun here => ?_, ih distinct.2⟩
      rcases mem_keys_putEntry.1 here with same | later
      · exact different same
      · exact distinct.1 later

/-- Values by name, each name once, in the order of their first entry. -/
structure NameTable (α : Type) where
  entries : List (String × α)
  distinct : (entries.map (·.1)).Nodup := by simp

namespace NameTable

def empty : NameTable α := ⟨[], List.nodup_nil⟩

def keys (table : NameTable α) : List String := table.entries.map (·.1)

def size (table : NameTable α) : Nat := table.entries.length

def put (table : NameTable α) (name : String) (value : α) : NameTable α :=
  ⟨putEntry name value table.entries, nodup_keys_putEntry table.distinct⟩

def get? (table : NameTable α) (name : String) : Option α :=
  (table.entries.find? (·.1 == name)).map (·.2)

def contains (table : NameTable α) (name : String) : Bool := table.keys.contains name

/-- The same names with new values made from the names and the old ones. -/
def mapEntries (table : NameTable α) (value : String → α → β) : NameTable β :=
  ⟨table.entries.map fun entry => (entry.1, value entry.1 entry.2), by
    simpa [List.map_map, Function.comp_def] using table.distinct⟩

/-- The entries in the order of their names. -/
def sorted (table : NameTable α) : NameTable α :=
  ⟨table.entries.mergeSort fun left right => left.1 ≤ right.1,
    (((List.mergeSort_perm table.entries _).map _).nodup_iff).2 table.distinct⟩

@[simp] theorem mem_keys_put {table : NameTable α} {name member : String} {value : α} :
    member ∈ (table.put name value).keys ↔ member = name ∨ member ∈ table.keys :=
  mem_keys_putEntry

@[simp] theorem keys_mapEntries {table : NameTable α} {value : String → α → β} :
    (table.mapEntries value).keys = table.keys := by
  simp [keys, mapEntries, List.map_map, Function.comp_def]

end NameTable
end GrammarBook
