import GrammarBook.Names.NameTable
import Mathlib.Data.List.Nodup

namespace GrammarBook
namespace NameTable

/-!
# Looking up names

A table gives a name the value that was entered last for it, whatever the order of the table.
-/

variable {α β : Type} {table : NameTable α} {name other : String} {value : α}

theorem get?_eq_some_iff : table.get? name = some value ↔ (name, value) ∈ table.entries := by
  rw [get?, Option.map_eq_some_iff]
  constructor
  · rintro ⟨entry, found, rfl⟩
    have same : entry.1 = name := by simpa using List.find?_some found
    rw [← same]
    exact List.mem_of_find?_eq_some found
  · intro member
    cases found : table.entries.find? (·.1 == name) with
    | none =>
        have absent := List.find?_eq_none.mp found (name, value) member
        simp at absent
    | some entry =>
        have same : entry.1 = name := by simpa using List.find?_some found
        have entered := List.mem_of_find?_eq_some found
        have alike : entry = (name, value) :=
          List.inj_on_of_nodup_map table.distinct entered member same
        exact ⟨entry, rfl, congrArg Prod.snd alike⟩

theorem mem_keys_iff : name ∈ table.keys ↔ ∃ value, table.get? name = some value := by
  simp only [get?_eq_some_iff, keys, List.mem_map, Prod.exists, exists_and_right, exists_eq_right]

theorem contains_iff : table.contains name = true ↔ name ∈ table.keys := by
  rw [contains, List.contains_iff_mem]

theorem mem_putEntry {entries : List (String × α)} {entry : String × α}
    (distinct : (entries.map (·.1)).Nodup) :
    entry ∈ putEntry name value entries ↔
      entry = (name, value) ∨ entry.1 ≠ name ∧ entry ∈ entries := by
  induction entries with
  | nil => simp [putEntry]
  | cons first others ih =>
      obtain ⟨key, old⟩ := first
      obtain ⟨notLater, laterDistinct⟩ := List.nodup_cons.mp distinct
      rw [putEntry]
      split
      · rename_i same
        subst same
        have later : ∀ entry ∈ others, entry.1 ≠ key := fun entry member alike =>
          notLater (List.mem_map.mpr ⟨entry, member, alike⟩)
        grind
      · grind

theorem get?_put : (table.put name value).get? other =
    if other = name then some value else table.get? other := by
  ext found
  rw [get?_eq_some_iff]
  change (other, found) ∈ putEntry name value table.entries ↔ _
  rw [mem_putEntry table.distinct]
  by_cases same : other = name
  · rw [if_pos same, same]
    simp [eq_comm]
  · rw [if_neg same, get?_eq_some_iff]
    simp [same]

theorem get?_sorted : table.sorted.get? name = table.get? name := by
  ext found
  rw [get?_eq_some_iff, get?_eq_some_iff]
  exact (List.mergeSort_perm table.entries _).mem_iff

theorem keys_sorted : table.sorted.keys = table.keys.mergeSort (· ≤ ·) :=
  List.map_mergeSort fun _ _ _ _ => rfl

theorem get?_mapEntries {change : String → α → β} :
    (table.mapEntries change).get? name = (table.get? name).map (change name) := by
  ext found
  rw [get?_eq_some_iff, Option.map_eq_some_iff]
  constructor
  · intro member
    obtain ⟨entry, entered, same⟩ := List.mem_map.mp member
    cases same
    exact ⟨entry.2, get?_eq_some_iff.mpr entered, rfl⟩
  · rintro ⟨old, entered, rfl⟩
    exact List.mem_map.mpr ⟨(name, old), get?_eq_some_iff.mp entered, rfl⟩

/-! ## Several entries -/

/-- Enters values for names in their order. -/
def putAll (table : NameTable α) (entries : List (String × α)) : NameTable α :=
  entries.foldl (fun table entry => table.put entry.1 entry.2) table

theorem entries_put (absent : name ∉ table.keys) :
    (table.put name value).entries = table.entries ++ [(name, value)] := by
  rcases table with ⟨entries, distinct⟩
  change putEntry name value entries = entries ++ [(name, value)]
  change name ∉ entries.map (·.1) at absent
  clear distinct
  induction entries with
  | nil => rfl
  | cons first others ih =>
      rw [List.map_cons, List.mem_cons, not_or] at absent
      rw [putEntry, if_neg (Ne.symm absent.1), ih absent.2, List.cons_append]

theorem keys_put (absent : name ∉ table.keys) :
    (table.put name value).keys = table.keys ++ [name] := by
  rw [keys, entries_put absent, List.map_append]
  rfl

theorem mem_keys_putAll {entries : List (String × α)} :
    name ∈ (table.putAll entries).keys ↔ name ∈ table.keys ∨ name ∈ entries.map (·.1) := by
  induction entries generalizing table with
  | nil => simp [putAll]
  | cons entry entries ih =>
      change name ∈ ((table.put entry.1 entry.2).putAll entries).keys ↔ _
      rw [ih, mem_keys_put, List.map_cons, List.mem_cons, or_assoc, or_left_comm]

/-- New names that are distinct are entered behind those in the table. -/
theorem entries_putAll {entries : List (String × α)}
    (distinct : (table.keys ++ entries.map (·.1)).Nodup) :
    (table.putAll entries).entries = table.entries ++ entries := by
  induction entries generalizing table with
  | nil => exact (List.append_nil table.entries).symm
  | cons entry entries ih =>
      have absent : entry.1 ∉ table.keys := fun known =>
        (List.nodup_append.mp distinct).2.2 _ known _ List.mem_cons_self rfl
      change ((table.put entry.1 entry.2).putAll entries).entries = _
      rw [ih, entries_put absent, List.append_assoc]
      · rfl
      · rw [keys_put absent, List.append_assoc]
        exact distinct

end NameTable
end GrammarBook
