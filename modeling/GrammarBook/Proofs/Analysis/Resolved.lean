import GrammarBook.Proofs.Analysis.Reach

namespace GrammarBook
namespace FragmentTable

/-!
# Expanded tables

The texts that the references of a table ask for: the text of a name is its fragments in a row, with
the texts of other names for the references to them. Without circles a name has such a text, since
references then lead down to names that refer to nothing.
-/

variable {table : FragmentTable} {name target : String}

/-! ## Ranks -/

/-- How many names of the table a name reaches. -/
def rank (table : FragmentTable) (name : String) : Nat :=
  (table.keys.filter fun key => key ∈ table.reached name).length

/-- Without circles, what a name refers to reaches fewer names than the name itself. -/
theorem rank_lt_of_refers (defined : table.IsDefined) (acyclic : table.IsAcyclic)
    (refers : table.Refers name target) : table.rank target < table.rank name := by
  have filtered : (table.keys.filter fun key => key ∈ table.reached target) =
      (table.keys.filter fun key => key ∈ table.reached name).filter fun key =>
        key ∈ table.reached target := by
    rw [List.filter_filter]
    refine List.filter_congr fun key _ => ?_
    have further : key ∈ table.reached target → key ∈ table.reached name := by
      rw [mem_reached_iff defined, mem_reached_iff defined]
      exact fun reaches => .head refers reaches
    grind
  rw [rank, rank, filtered, List.length_filter_lt_length_iff_exists]
  have isReached : target ∈ table.reached name := (mem_reached_iff defined).mpr (.single refers)
  have notItself : target ∉ table.reached target := fun reached =>
    acyclic target ((mem_reached_iff defined).mp reached)
  refine ⟨target, List.mem_filter.mpr ⟨defined refers, decide_eq_true isReached⟩, ?_⟩
  simpa using notItself

/-- References can be followed down. -/
theorem wellFounded_refers (defined : table.IsDefined) (acyclic : table.IsAcyclic) :
    WellFounded fun target name => table.Refers name target :=
  Subrelation.wf (rank_lt_of_refers defined acyclic) (measure table.rank).wf

theorem rank_lt_size (defined : table.IsDefined) (acyclic : table.IsAcyclic)
    (member : name ∈ table.keys) : table.rank name < table.size := by
  have fewer : table.rank name < table.keys.length := by
    rw [rank, List.length_filter_lt_length_iff_exists]
    have notItself : name ∉ table.reached name := fun reached =>
      acyclic name ((mem_reached_iff defined).mp reached)
    exact ⟨name, member, by simpa using notItself⟩
  exact Nat.lt_of_lt_of_eq fewer (List.length_map _)

/-! ## Expansion -/

/-- The text of a name, its references replaced down to the given depth. -/
def expand (table : FragmentTable) : Nat → String → Option String
  | 0, _ => none
  | depth + 1, name => do
    let fragments ← table.get? name
    let pieces ← fragments.mapM fun
      | .text text => some text
      | .reference target => expand table depth target
    pure (String.join pieces)

/-- The text of a fragment, with the texts of names for references. -/
def pieceText (textOf : String → String) : Fragment → String
  | .text text => text
  | .reference name => textOf name

def resolved (textOf : String → String) (fragments : List Fragment) : String :=
  String.join (fragments.map (pieceText textOf))

theorem resolved_congr {left right : String → String} {fragments : List Fragment}
    (same : ∀ target ∈ targets fragments, left target = right target) :
    resolved left fragments = resolved right fragments := by
  rw [resolved, resolved]
  congr 1
  refine List.map_congr_left fun fragment member => ?_
  cases fragment with
  | text text => rfl
  | reference target => exact same target (List.mem_filterMap.mpr ⟨_, member, rfl⟩)

theorem mapM_eq_some {α β : Type} {read : α → Option β} (value : α → β) {list : List α}
    (all : ∀ member ∈ list, read member = some (value member)) :
    list.mapM read = some (list.map value) := by
  induction list with
  | nil => rfl
  | cons first list ih =>
      obtain ⟨here, later⟩ := List.forall_mem_cons.mp all
      rw [List.mapM_cons, here, ih later]
      rfl

theorem expand_succ {depth : Nat} {textOf : String → String} {fragments : List Fragment}
    (entered : table.get? name = some fragments)
    (expands : ∀ target, table.Refers name target →
      table.expand depth target = some (textOf target)) :
    table.expand (depth + 1) name = some (resolved textOf fragments) := by
  rw [expand, entered]
  simp only [Option.bind_eq_bind, Option.bind_some]
  rw [mapM_eq_some (pieceText textOf)]
  · rfl
  · intro fragment member
    cases fragment with
    | text text => rfl
    | reference target =>
        apply expands
        rw [Refers, entered]
        exact List.mem_filterMap.mpr ⟨.reference target, member, rfl⟩

/-- The text of a name, expanded as deep as the table is long. -/
def textOf (table : FragmentTable) (name : String) : String :=
  (table.expand table.size name).getD ""

/-- Deep enough, a name is expanded to its text. -/
theorem expand_eq (defined : table.IsDefined) (acyclic : table.IsAcyclic)
    (member : name ∈ table.keys) :
    ∀ depth, table.rank name < depth → table.expand depth name = some (table.textOf name) := by
  induction name using (wellFounded_refers defined acyclic).induction with
  | _ name ih =>
      obtain ⟨fragments, entered⟩ := NameTable.mem_keys_iff.mp member
      have expands : ∀ depth, table.rank name < depth →
          table.expand depth name = some (resolved table.textOf fragments) := by
        intro depth deep
        obtain ⟨above, rfl⟩ := Nat.exists_eq_add_one_of_ne_zero (Nat.ne_zero_of_lt deep)
        apply expand_succ entered
        intro target refers
        have lower := rank_lt_of_refers defined acyclic refers
        exact ih target refers (defined refers) above (by omega)
      intro depth deep
      have same : table.textOf name = resolved table.textOf fragments := by
        conv_lhs => rw [textOf, expands table.size (rank_lt_size defined acyclic member)]
        rfl
      rw [same]
      exact expands depth deep

/-- The text of a name is the text of its fragments. -/
theorem textOf_eq (defined : table.IsDefined) (acyclic : table.IsAcyclic)
    {fragments : List Fragment} (entered : table.get? name = some fragments) :
    table.textOf name = resolved table.textOf fragments := by
  have member : name ∈ table.keys := NameTable.mem_keys_iff.mpr ⟨fragments, entered⟩
  have deep := rank_lt_size defined acyclic member
  have expanded : table.expand (table.size + 1) name =
      some (resolved table.textOf fragments) := by
    apply expand_succ entered
    intro target refers
    exact expand_eq defined acyclic (defined refers) _
      (rank_lt_size defined acyclic (defined refers))
  rw [expand_eq defined acyclic member _ (Nat.lt_succ_of_lt deep)] at expanded
  exact Option.some.inj expanded

end FragmentTable
end GrammarBook
