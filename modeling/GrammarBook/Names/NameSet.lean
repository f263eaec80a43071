namespace GrammarBook

/-!
# Sets of names

A set of names that lists its members in ascending order, each once.
-/

/-- Puts a name into its place in an ascending list; a name that is there is not repeated. -/
def insertName (name : String) : List String → List String
  | [] => [name]
  | other :: others =>
    if name < other then name :: other :: others
    else if name = other then other :: others
    else other :: insertName name others

theorem mem_insertName {name member : String} {names : List String} :
    member ∈ insertName name names ↔ member = name ∨ member ∈ names := by
  induction names with
  | nil => simp [insertName]
  | cons other others ih =>
    simp only [insertName]
    split
    · simp
    · split
      · rename_i same
        simp [same]
      · simp only [List.mem_cons, ih]
        grind

theorem pairwise_insertName {name : String} {names : List String}
    (ascending : names.Pairwise (· < ·)) : (insertName name names).Pairwise (· < ·) := by
  induction names with
  | nil => simp [insertName]
  | cons other others ih =>
    rw [List.pairwise_cons] at ascending
    simp only [insertName]
    split
    · rename_i below
      refine List.pairwise_cons.2 ⟨fun member here => ?_, List.pairwise_cons.2 ascending⟩
      rcases List.mem_cons.1 here with same | later
      · exact same ▸ below
      · exact String.lt_trans below (ascending.1 member later)
    · split
      · exact List.pairwise_cons.2 ascending
      · rename_i notBelow different
        refine List.pairwise_cons.2 ⟨fun member here => ?_, ih ascending.2⟩
        rcases mem_insertName.1 here with same | later
        · subst same
          exact Std.lt_of_le_of_ne (String.not_lt.1 notBelow) (Ne.symm different)
        · exact ascending.1 member later

/-- Names in ascending order without repetition. -/
structure NameSet where
  toList : List String
  ascending : toList.Pairwise (· < ·) := by simp

namespace NameSet

def empty : NameSet := ⟨[], .nil⟩

def insert (names : NameSet) (name : String) : NameSet :=
  ⟨insertName name names.toList, pairwise_insertName names.ascending⟩

def contains (names : NameSet) (name : String) : Bool := names.toList.contains name

def isEmpty (names : NameSet) : Bool := names.toList.isEmpty

/-- The least member that is not in the list. -/
def firstOutside? (names : NameSet) (list : List String) : Option String :=
  names.toList.find? fun name => !list.contains name

@[simp] theorem mem_insert {names : NameSet} {name member : String} :
    member ∈ (names.insert name).toList ↔ member = name ∨ member ∈ names.toList :=
  mem_insertName

/-- Nothing lies outside the list exactly when all members are in it. -/
theorem firstOutside?_eq_none_iff {names : NameSet} {list : List String} :
    names.firstOutside? list = none ↔ ∀ name ∈ names.toList, name ∈ list := by
  simp [firstOutside?, List.find?_eq_none]

end NameSet
end GrammarBook
