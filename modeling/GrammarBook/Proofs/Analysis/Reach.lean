import GrammarBook.Analysis.Resolution
import GrammarBook.Proofs.Names.NameTable
import Mathlib.Logic.Relation
import Mathlib.Data.List.Basic

namespace GrammarBook
namespace FragmentTable

/-!
# References that lead around in circles

What a name reaches is computed in rounds. As many rounds as there are names are enough, since every
round but the last comes to a new name. So the circles that are found are all circles that there are,
and where none is found every name can be expanded.
-/

variable (table : FragmentTable)

/-- The expression of the name refers to the target. -/
def Refers (name target : String) : Prop := target ∈ targets ((table.get? name).getD [])

/-- The name reaches the target through one or more references. -/
def Reaches : String → String → Prop := Relation.TransGen table.Refers

/-- All names that are referred to are in the table. -/
def IsDefined : Prop :=
  ∀ ⦃name target : String⦄, table.Refers name target → target ∈ table.keys

/-- No name reaches itself. -/
def IsAcyclic : Prop := ∀ name, ¬ table.Reaches name name

variable {table} {names : List String} {name other target : String}

/-! ## Rounds -/

theorem mem_addName : target ∈ addName names name ↔ target ∈ names ∨ target = name := by
  unfold addName
  split
  · rename_i known
    constructor
    · exact .inl
    · rintro (member | rfl)
      · exact member
      · exact known
  · simp

theorem mem_foldl_addName {list : List String} :
    target ∈ list.foldl addName names ↔ target ∈ names ∨ target ∈ list := by
  induction list generalizing names with
  | nil => simp
  | cons first list ih =>
      rw [List.foldl_cons, ih, mem_addName, List.mem_cons]
      tauto

theorem prefix_foldl_addName (list : List String) : names <+: list.foldl addName names := by
  induction list generalizing names with
  | nil => exact List.prefix_refl names
  | cons first list ih =>
      refine List.IsPrefix.trans ?_ ih
      unfold addName
      split
      · exact List.prefix_refl names
      · exact List.prefix_append names [first]

theorem mem_oneRound : target ∈ oneRound table names ↔
    target ∈ names ∨ ∃ name ∈ names, table.Refers name target := by
  rw [oneRound, mem_foldl_addName, List.mem_flatMap]
  rfl

theorem foldl_addName_of_subset {list : List String} (known : ∀ name ∈ list, name ∈ names) :
    list.foldl addName names = names := by
  induction list with
  | nil => rfl
  | cons first list ih =>
      obtain ⟨here, later⟩ := List.forall_mem_cons.mp known
      rw [List.foldl_cons, addName, if_pos here, ih later]

/-- A round comes to no new name when nothing more is referred to. -/
theorem closed_of_oneRound (last : (oneRound table names).length = names.length)
    (member : name ∈ names) (refers : table.Refers name target) : target ∈ names := by
  have same : names = oneRound table names := (prefix_foldl_addName _).eq_of_length last.symm
  rw [same]
  exact mem_oneRound.mpr (.inr ⟨name, member, refers⟩)

theorem subset_closure (rounds : Nat) (member : name ∈ names) :
    name ∈ closure table rounds names := by
  induction rounds generalizing names with
  | zero => exact member
  | succ rounds ih =>
      rw [closure]
      split
      · exact member
      · exact ih (mem_oneRound.mpr (.inl member))

/-- Rounds come to nothing but what is reached. -/
theorem reaches_of_mem_closure {rounds : Nat} (member : target ∈ closure table rounds names) :
    target ∈ names ∨ ∃ name ∈ names, table.Reaches name target := by
  induction rounds generalizing names with
  | zero => exact .inl member
  | succ rounds ih =>
      rw [closure] at member
      split at member
      · exact .inl member
      · rcases ih member with found | ⟨between, found, reaches⟩
        · rcases mem_oneRound.mp found with early | ⟨name, early, refers⟩
          · exact .inl early
          · exact .inr ⟨name, early, .single refers⟩
        · rcases mem_oneRound.mp found with early | ⟨name, early, refers⟩
          · exact .inr ⟨between, early, reaches⟩
          · exact .inr ⟨name, early, .head refers reaches⟩

/-- The names of the table that are not in the list. -/
def missing (table : FragmentTable) (names : List String) : List String :=
  table.keys.filter fun key => key ∉ names

/-- A round that is not the last comes to a name that was missing. -/
theorem missing_oneRound (defined : table.IsDefined)
    (more : (oneRound table names).length ≠ names.length) :
    (missing table (oneRound table names)).length < (missing table names).length := by
  obtain ⟨target, referred, new⟩ : ∃ target,
      (∃ name ∈ names, table.Refers name target) ∧ target ∉ names := by
    by_contra none
    apply more
    rw [oneRound, foldl_addName_of_subset]
    intro target member
    by_contra new
    exact none ⟨target, List.mem_flatMap.mp member, new⟩
  have isKey : target ∈ table.keys := by
    obtain ⟨_, _, refers⟩ := referred
    exact defined refers
  have filtered : missing table (oneRound table names) =
      (missing table names).filter fun key => key ∉ oneRound table names := by
    rw [missing, missing, List.filter_filter]
    refine List.filter_congr fun key _ => ?_
    have kept : key ∈ names → key ∈ oneRound table names := fun member =>
      mem_oneRound.mpr (.inl member)
    grind
  rw [filtered, List.length_filter_lt_length_iff_exists]
  refine ⟨target, List.mem_filter.mpr ⟨isKey, by simpa using new⟩, ?_⟩
  simpa using mem_oneRound.mpr (.inr referred)

/-- With rounds enough the names are closed under reference. -/
theorem closed_closure (defined : table.IsDefined) {rounds : Nat}
    (enough : (missing table names).length ≤ rounds) (member : name ∈ closure table rounds names)
    (refers : table.Refers name target) : target ∈ closure table rounds names := by
  induction rounds generalizing names with
  | zero =>
      have none : missing table names = [] := List.length_eq_zero_iff.mp (Nat.le_zero.mp enough)
      have all := List.filter_eq_nil_iff.mp none target (defined refers)
      exact by_contra fun absent => all (decide_eq_true absent)
  | succ rounds ih =>
      rw [closure] at member ⊢
      split at member
      · rename_i last
        rw [if_pos last]
        exact closed_of_oneRound last member refers
      · rename_i more
        rw [if_neg more]
        have fewer := missing_oneRound defined more
        exact ih (by omega) member

/-- What is computed to be reached is what is reached. -/
theorem mem_reached_iff (defined : table.IsDefined) :
    target ∈ table.reached name ↔ table.Reaches name target := by
  constructor
  · intro member
    rcases reaches_of_mem_closure member with first | ⟨between, first, reaches⟩
    · exact .single first
    · exact .head first reaches
  · intro reaches
    have enough : (missing table (targets ((table.get? name).getD []))).length ≤ table.size :=
      Nat.le_trans (List.length_filter_le _ _) (Nat.le_of_eq (List.length_map _))
    induction reaches with
    | single refers => exact subset_closure table.size refers
    | tail _ refers ih => exact closed_closure defined enough ih refers

/-! ## Searches -/

/-- A later state of a search. What it has come to since then it has finished, and what it has
finished since then it had not come to before. -/
structure Search.Extends (before after : Search) : Prop where
  seen : ∀ name ∈ before.seen, name ∈ after.seen
  finished : ∀ name ∈ before.finished, name ∈ after.finished
  since : ∀ name ∈ after.seen, name ∈ before.seen ∨ name ∈ after.finished
  fresh : ∀ name ∈ after.finished, name ∈ before.finished ∨ name ∉ before.seen

theorem Search.Extends.refl (search : Search) : search.Extends search :=
  ⟨fun _ => id, fun _ => id, fun _ => .inl, fun _ => .inl⟩

theorem Search.Extends.trans {first second third : Search} (early : first.Extends second)
    (late : second.Extends third) : first.Extends third := by
  refine ⟨fun name member => late.seen name (early.seen name member),
    fun name member => late.finished name (early.finished name member), ?_, ?_⟩
  · intro name member
    rcases late.since name member with between | done
    · rcases early.since name between with before | done
      · exact .inl before
      · exact .inr (late.finished name done)
    · exact .inr done
  · intro name member
    rcases late.fresh name member with between | new
    · exact early.fresh name between
    · exact .inr fun before => new (early.seen name before)

theorem Search.Extends.foldl {visit : Search → String → Search}
    (one : ∀ (search : Search) (name : String), search.Extends (visit search name)) (search : Search)
    (list : List String) : search.Extends (list.foldl visit search) := by
  induction list generalizing search with
  | nil => exact .refl search
  | cons first list ih => exact (one search first).trans (ih (visit search first))

/-- A search from a name finishes all that it comes to, even where its depth is used up. -/
theorem extends_searchFrom (depth : Nat) (search : Search) (name : String) :
    search.Extends (searchFrom table depth search name) := by
  induction depth generalizing search name with
  | zero => exact .refl search
  | succ depth ih =>
      rw [searchFrom]
      split
      · exact .refl search
      · rename_i notSeen
        obtain ⟨seen, finished, since, fresh⟩ := Search.Extends.foldl ih
          { search with seen := name :: search.seen } (table.users name)
        refine ⟨fun other member => seen other (List.mem_cons_of_mem name member),
          fun other member => List.mem_append_left _ (finished other member), ?_, ?_⟩
        · intro other member
          rcases since other member with before | done
          · rcases List.mem_cons.mp before with rfl | earlier
            · exact .inr (List.mem_append_right _ List.mem_cons_self)
            · exact .inl earlier
          · exact .inr (List.mem_append_left _ done)
        · intro other member
          rcases List.mem_append.mp member with during | last
          · rcases fresh other during with before | new
            · exact .inl before
            · exact .inr fun earlier => new (List.mem_cons_of_mem name earlier)
          · exact .inr (List.mem_singleton.mp last ▸ notSeen)

theorem mem_seen_searchFrom (depth : Nat) (search : Search) (name : String) :
    name ∈ (searchFrom table (depth + 1) search name).seen := by
  rw [searchFrom]
  split
  · rename_i seen
    exact seen
  · exact (Search.Extends.foldl (extends_searchFrom depth)
      { search with seen := name :: search.seen } (table.users name)).seen name List.mem_cons_self

/-- Every name of the table is finished in the end. -/
theorem mem_finishOrder (member : name ∈ table.keys) : name ∈ table.finishOrder := by
  have come : ∀ (list : List String) (search : Search), name ∈ list →
      name ∈ (list.foldl (searchFrom table (table.size + 1)) search).seen := by
    intro list
    induction list with
    | nil => exact fun _ absent => absurd absent List.not_mem_nil
    | cons first list ih =>
        intro search present
        rcases List.mem_cons.mp present with rfl | later
        · exact (Search.Extends.foldl (extends_searchFrom _) _ list).seen name
            (mem_seen_searchFrom table.size search name)
        · exact ih _ later
  have ended : Search.Extends {} (table.keys.foldl (searchFrom table (table.size + 1)) {}) :=
    Search.Extends.foldl (extends_searchFrom _) {} table.keys
  rcases ended.since name (come table.keys {} member) with before | done
  · exact absurd before List.not_mem_nil
  · exact done

/-! ## Circles -/

theorem mem_keys_of_refers (refers : table.Refers name target) : name ∈ table.keys := by
  cases found : table.get? name with
  | none =>
      rw [Refers, found] at refers
      cases refers
  | some fragments => exact NameTable.mem_keys_iff.mpr ⟨fragments, found⟩

theorem mem_keys_of_reaches (reaches : table.Reaches name target) : name ∈ table.keys := by
  obtain ⟨between, refers, _⟩ := Relation.TransGen.head'_iff.mp reaches
  exact mem_keys_of_refers refers

theorem areConnected_iff (defined : table.IsDefined) :
    table.areConnected name other = true ↔
      name = other ∨ table.Reaches name other ∧ table.Reaches other name := by
  rw [areConnected, Bool.or_eq_true, Bool.and_eq_true, List.contains_iff_mem,
    List.contains_iff_mem, mem_reached_iff defined, mem_reached_iff defined, beq_iff_eq]

theorem mem_component_iff (defined : table.IsDefined) : other ∈ table.component name ↔
    other ∈ table.keys ∧ (name = other ∨ table.Reaches name other ∧ table.Reaches other name) := by
  rw [component, List.mem_filter, areConnected_iff defined]

theorem nodup_component : (table.component name).Nodup := table.distinct.filter _

/-- A circle goes through a name if its component has another member, or a member that is on a circle. -/
theorem reaches_of_mem_component (defined : table.IsDefined) (member : other ∈ table.component name)
    (circle : name ≠ other ∨ table.Reaches other other) : table.Reaches name name := by
  rcases ((mem_component_iff defined).mp member).2 with rfl | ⟨there, back⟩
  · exact circle.resolve_left fun different => different rfl
  · exact there.trans back

/-- A component that counts as cyclic has a circle through the name it is made for. -/
theorem reaches_of_isCyclic (defined : table.IsDefined)
    (cyclic : table.isCyclic (table.component name) = true) : table.Reaches name name := by
  rw [isCyclic, Bool.or_eq_true, decide_eq_true_eq] at cyclic
  have distinct : (table.component name).Nodup := nodup_component
  match members : table.component name with
  | [] => simp [members] at cyclic
  | [only] =>
      have itself : table.Refers only only := by
        rw [members] at cyclic
        rcases cyclic with several | itself
        · exact absurd several (Nat.lt_irrefl 1)
        · exact List.contains_iff_mem.mp itself
      exact reaches_of_mem_component defined (members ▸ List.mem_cons_self) (.inr (.single itself))
  | first :: second :: others =>
      -- Of two distinct members one at least is another name.
      have isFirst : first ∈ table.component name := members ▸ List.mem_cons_self
      have isSecond : second ∈ table.component name :=
        members ▸ List.mem_cons_of_mem first List.mem_cons_self
      rw [members] at distinct
      by_cases same : name = first
      · have different : name ≠ second := fun equal =>
          (List.nodup_cons.mp distinct).1 (same ▸ equal ▸ List.mem_cons_self)
        exact reaches_of_mem_component defined isSecond (.inl different)
      · exact reaches_of_mem_component defined isFirst (.inl same)

theorem isCyclic_of_reaches (defined : table.IsDefined) (circle : table.Reaches name name) :
    table.isCyclic (table.component name) = true := by
  rw [isCyclic, Bool.or_eq_true, decide_eq_true_eq, or_iff_not_imp_left]
  intro single
  have itself : name ∈ table.component name :=
    (mem_component_iff defined).mpr ⟨mem_keys_of_reaches circle, .inl rfl⟩
  obtain ⟨only, alone⟩ := List.length_eq_one_iff.mp
    (Nat.le_antisymm (Nat.le_of_not_lt single) (List.length_pos_of_mem itself))
  obtain rfl : name = only := List.mem_singleton.mp (alone ▸ itself)
  -- The first name on the way around is a member, and so it is the name itself.
  obtain ⟨between, refers, back⟩ := Relation.TransGen.head'_iff.mp circle
  have member : between ∈ table.component name := by
    refine (mem_component_iff defined).mpr ⟨defined refers, ?_⟩
    rcases Relation.reflTransGen_iff_eq_or_transGen.mp back with same | reaches
    · exact .inl same
    · exact .inr ⟨.single refers, reaches⟩
  rw [alone] at member ⊢
  rw [List.mem_singleton.mp member] at refers
  exact List.contains_iff_mem.mpr refers

/-- The test for a cyclic component tells whether there is a circle through its members. -/
theorem isCyclic_iff (defined : table.IsDefined) :
    table.isCyclic (table.component name) = true ↔ table.Reaches name name :=
  ⟨reaches_of_isCyclic defined, isCyclic_of_reaches defined⟩

/-- Who is connected with a member of a circle is a member of one. -/
theorem reaches_of_areConnected (defined : table.IsDefined)
    (connected : table.areConnected name other = true) (circle : table.Reaches name name) :
    table.Reaches other other := by
  rcases (areConnected_iff defined).mp connected with rfl | ⟨there, back⟩
  · exact circle
  · exact back.trans there

theorem not_reaches_of_firstCycleIn (defined : table.IsDefined)
    (none : firstCycleIn table names = none) (member : name ∈ names) :
    ¬ table.Reaches name name := by
  induction names generalizing name with
  | nil => cases member
  | cons first later ih =>
      rw [firstCycleIn] at none
      split at none
      · cases none
      · rename_i notLast
        rcases List.mem_cons.mp member with rfl | elsewhere
        · intro circle
          apply notLast
          refine ⟨(isCyclic_iff defined).mpr circle, List.all_eq_true.mpr fun other isLater => ?_⟩
          rw [Bool.not_eq_true']
          by_contra connected
          exact ih none isLater
            (reaches_of_areConnected defined (Bool.not_eq_false _ ▸ connected) circle)
        · exact ih none elsewhere

/-- Where no circle is found there is none. -/
theorem isAcyclic_of_cycle? (defined : table.IsDefined) (none : table.cycle? = none) :
    table.IsAcyclic := by
  intro name circle
  rw [cycle?, Option.map_eq_none_iff] at none
  exact not_reaches_of_firstCycleIn defined none (mem_finishOrder (mem_keys_of_reaches circle)) circle

theorem exists_of_firstCycleIn {circle : List String}
    (found : firstCycleIn table names = some circle) :
    ∃ name, table.isCyclic (table.component name) = true ∧ circle = table.component name := by
  induction names with
  | nil => cases found
  | cons first later ih =>
      rw [firstCycleIn] at found
      split at found
      · rename_i last
        exact ⟨first, last.1, (Option.some.inj found).symm⟩
      · exact ih found

/-- The members of a circle that is found are the names connected with one that reaches itself. -/
theorem exists_of_cycle? (defined : table.IsDefined) {circle : List String}
    (found : table.cycle? = some circle) :
    ∃ name, table.Reaches name name ∧
      ∀ other, other ∈ circle ↔ table.Reaches name other ∧ table.Reaches other name := by
  obtain ⟨members, first, sorted⟩ := Option.map_eq_some_iff.mp found
  obtain ⟨name, cyclic, rfl⟩ := exists_of_firstCycleIn first
  have itself : table.Reaches name name := (isCyclic_iff defined).mp cyclic
  refine ⟨name, itself, fun other => ?_⟩
  rw [← sorted, (List.mergeSort_perm _ _).mem_iff, mem_component_iff defined]
  constructor
  · rintro ⟨_, rfl | both⟩
    · exact ⟨itself, itself⟩
    · exact both
  · intro both
    exact ⟨mem_keys_of_reaches both.2, .inr both⟩

/-- A circle that is found is one: there are names in it, and each reaches all. -/
theorem reaches_of_cycle? (defined : table.IsDefined) {circle : List String}
    (found : table.cycle? = some circle) :
    circle ≠ [] ∧ ∀ name ∈ circle, ∀ other ∈ circle, table.Reaches name other := by
  obtain ⟨name, itself, members⟩ := exists_of_cycle? defined found
  constructor
  · exact List.ne_nil_of_mem ((members name).mpr ⟨itself, itself⟩)
  · intro left leftMember right rightMember
    exact ((members left).mp leftMember).2.trans ((members right).mp rightMember).1

end FragmentTable
end GrammarBook
