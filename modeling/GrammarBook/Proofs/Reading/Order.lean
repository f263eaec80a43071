import GrammarBook.Reading.Productions

namespace GrammarBook
namespace Reading

/-!
# The order of expressions

Expressions are put in the order of their names, which is that of the code points, and those of one
name keep the order in which they were written. These two conditions leave one list only.
-/

/-- The expressions stand in the order of their names. -/
def IsAscending (expressions : List Expression) : Prop :=
  expressions.Pairwise fun left right => left.name ≤ right.name

/-- The expressions of one name, in their order. -/
def called (name : String) (expressions : List Expression) : List Expression :=
  expressions.filter (·.name == name)

theorem mem_called {name : String} {expressions : List Expression} {expression : Expression} :
    expression ∈ called name expressions ↔ expression ∈ expressions ∧ expression.name = name := by
  rw [called, List.mem_filter, beq_iff_eq]

/-- The second list has the expressions of the first in the order of their names, and those of one
name as they were. -/
structure StablySorted (source sorted : List Expression) : Prop where
  perm : sorted.Perm source
  ascending : IsAscending sorted
  stable : ∀ name, called name sorted = called name source

section ByName

variable {α : Type} (nameOf : α → String)

theorem name_le_trans (one two three : α) (first : decide (nameOf one ≤ nameOf two) = true)
    (second : decide (nameOf two ≤ nameOf three) = true) :
    decide (nameOf one ≤ nameOf three) = true :=
  decide_eq_true (String.le_trans (of_decide_eq_true first) (of_decide_eq_true second))

theorem name_le_total (one two : α) :
    (decide (nameOf one ≤ nameOf two) || decide (nameOf two ≤ nameOf one)) = true := by
  rw [Bool.or_eq_true, decide_eq_true_eq, decide_eq_true_eq]
  exact String.le_total _ _

/-- A list sorted by names has its names in order. -/
theorem pairwise_sorted_by_name (members : List α) :
    (members.mergeSort (nameOf · ≤ nameOf ·)).Pairwise fun left right => nameOf left ≤ nameOf right :=
  (List.pairwise_mergeSort (name_le_trans nameOf) (name_le_total nameOf) members).imp
    of_decide_eq_true

end ByName

/-- In a list of distinct names in order each is less than the next. -/
theorem pairwise_lt_of_nodup {names : List String} (distinct : names.Nodup)
    (ascending : names.Pairwise (· ≤ ·)) : names.Pairwise (· < ·) :=
  (ascending.and distinct).imp fun ⟨least, other⟩ => Std.lt_of_le_of_ne least other

theorem pairwise_mergeSort_names {names : List String} (distinct : names.Nodup) :
    (names.mergeSort (· ≤ ·)).Pairwise (· < ·) :=
  pairwise_lt_of_nodup ((List.mergeSort_perm names _).nodup_iff.mpr distinct)
    (pairwise_sorted_by_name id names)

theorem sortExpressions_perm (expressions : List Expression) :
    (sortExpressions expressions).Perm expressions :=
  List.mergeSort_perm ..

theorem sortExpressions_ascending (expressions : List Expression) :
    IsAscending (sortExpressions expressions) :=
  pairwise_sorted_by_name Expression.name expressions

/-- What is in order already is left as it is. -/
theorem sortExpressions_of_ascending {expressions : List Expression}
    (ascending : IsAscending expressions) : sortExpressions expressions = expressions :=
  List.mergeSort_of_pairwise (ascending.imp decide_eq_true)

theorem sortExpressions_sorts (expressions : List Expression) :
    StablySorted expressions (sortExpressions expressions) where
  perm := sortExpressions_perm expressions
  ascending := sortExpressions_ascending expressions
  stable := by
    intro name
    have oneName : (called name expressions).Pairwise fun left right =>
        decide (left.name ≤ right.name) = true := by
      rw [List.pairwise_iff_forall_sublist]
      intro left right both
      have sameLeft := (mem_called.mp (both.subset (List.mem_cons_self ..))).2
      have sameRight := (mem_called.mp
        (both.subset (List.mem_cons_of_mem _ (List.mem_singleton_self _)))).2
      rw [sameLeft, sameRight]
      exact decide_eq_true (String.le_refl name)
    have kept := (List.sublist_mergeSort (name_le_trans Expression.name) (name_le_total Expression.name) oneName
      List.filter_sublist).filter (·.name == name)
    have sameLength := ((sortExpressions_perm expressions).filter (·.name == name)).length_eq
    rw [called, List.filter_filter] at kept
    simp only [Bool.and_self] at kept
    exact (kept.eq_of_length sameLength.symm).symm

/-- The first of expressions in order has the least name, also of those that another list has. -/
theorem first_le_of_called {first : Expression} {rest other : List Expression}
    (ascending : IsAscending (first :: rest))
    (same : ∀ name, called name (first :: rest) = called name other) {expression : Expression}
    (member : expression ∈ other) : first.name ≤ expression.name := by
  have inCalled := mem_called.mpr ⟨member, rfl⟩
  rw [← same] at inCalled
  rcases List.mem_cons.mp (mem_called.mp inCalled).1 with isFirst | later
  · subst isFirst
    exact String.le_refl _
  · exact (List.pairwise_cons.mp ascending).1 expression later

/-- Lists in order that agree on every name agree. -/
theorem eq_of_called_eq {one other : List Expression} (ascending : IsAscending one)
    (ascending' : IsAscending other) (same : ∀ name, called name one = called name other) :
    one = other := by
  induction one generalizing other with
  | nil =>
      cases other with
      | nil => rfl
      | cons head tail =>
          have none := same head.name
          simp [called] at none
  | cons first rest ih =>
      cases other with
      | nil =>
          have none := same first.name
          simp [called] at none
      | cons first' rest' =>
          have sameName : first.name = first'.name := String.le_antisymm
            (first_le_of_called ascending same (List.mem_cons_self ..))
            (first_le_of_called ascending' (fun name => (same name).symm) (List.mem_cons_self ..))
          have heads := same first.name
          simp only [called, List.filter_cons, sameName, beq_self_eq_true, if_true,
            List.cons.injEq] at heads
          obtain ⟨sameFirst, _⟩ := heads
          subst sameFirst
          have sameRest : ∀ name, called name rest = called name rest' := by
            intro name
            have both := same name
            simp only [called, List.filter_cons] at both
            by_cases isName : (first.name == name) = true
            · rw [if_pos isName, if_pos isName] at both
              exact (List.cons.inj both).2
            · rw [if_neg isName, if_neg isName] at both
              exact both
          rw [ih (List.pairwise_cons.mp ascending).2 (List.pairwise_cons.mp ascending').2 sameRest]

/-- Sorting is the one way to put expressions in the order of their names that keeps the order of
those of one name. -/
theorem stablySorted_iff {source sorted : List Expression} :
    StablySorted source sorted ↔ sorted = sortExpressions source := by
  constructor
  · intro sorts
    have stable := (sortExpressions_sorts source).stable
    exact eq_of_called_eq sorts.ascending (sortExpressions_ascending source)
      fun name => (sorts.stable name).trans (stable name).symm
  · rintro rfl
    exact sortExpressions_sorts source

end Reading
end GrammarBook
