import GrammarBook.Proofs.Analysis.Resolution
import GrammarBook.Proofs.Reading.Order

namespace GrammarBook
namespace FragmentTable

/-!
# Reported circles

Names that reach each other form a component. Where references lead around in a circle, the names
that the message lists are such a component as a whole, not only some way around in it: none is
missing, none is listed twice, and they stand in ascending order before the first is repeated.
-/

variable {table : FragmentTable} {name : String} {circle : List String}

/-- Some names, in ascending order and each once, that all reach each other and themselves, with
every name that is connected with one of them. -/
structure IsCyclicComponent (table : FragmentTable) (names : List String) : Prop where
  nonempty : names ≠ []
  ascending : names.Pairwise (· < ·)
  connected : ∀ name ∈ names, ∀ other ∈ names, table.Reaches name other
  complete : ∀ name ∈ names, ∀ other, table.Reaches name other → table.Reaches other name →
    other ∈ names

theorem pairwise_lt_of_cycle? (found : table.cycle? = some circle) : circle.Pairwise (· < ·) := by
  obtain ⟨members, first, sorted⟩ := Option.map_eq_some_iff.mp found
  obtain ⟨name, _, rfl⟩ := exists_of_firstCycleIn first
  exact sorted ▸ Reading.pairwise_mergeSort_names nodup_component

/-- A circle that is found is a whole component. -/
theorem isCyclicComponent_of_cycle? (defined : table.IsDefined)
    (found : table.cycle? = some circle) :
    table.IsCyclicComponent circle := by
  obtain ⟨nonempty, connected⟩ := reaches_of_cycle? defined found
  obtain ⟨first, _, members⟩ := exists_of_cycle? defined found
  refine ⟨nonempty, pairwise_lt_of_cycle? found, connected, ?_⟩
  intro name listed other there back
  obtain ⟨fromFirst, toFirst⟩ := (members name).mp listed
  exact (members other).mpr ⟨fromFirst.trans there, back.trans toFirst⟩

/-- Where all names are defined and some lead back to themselves, the names of one cyclic component
are reported, with the first of them again at the end. -/
theorem reported_circle_is_component (defined : table.IsDefined) (circular : ¬ table.IsAcyclic) :
    ∃ first others, table.IsCyclicComponent (first :: others) ∧
      table.resolve = .error (.semantic (.circular (first :: others ++ [first]))) ∧
      (Violation.circular (first :: others ++ [first])).message =
        "Circular expression reference: " ++ " → ".intercalate (first :: others ++ [first]) := by
  cases found : table.cycle? with
  | none => exact absurd (isAcyclic_of_cycle? defined found) circular
  | some circle =>
      have component := isCyclicComponent_of_cycle? defined found
      obtain ⟨first, others, rfl⟩ := List.exists_cons_of_ne_nil component.nonempty
      refine ⟨first, others, component, ?_, Violation.message.eq_def _⟩
      rw [resolve, firstUndefined?_eq_none_iff.mpr defined, found]
      rfl

/-- Two circles, one of two names and one of a single name, and a name that leads into the first. -/
def tangledTable : FragmentTable where
  entries :=
    [("a", [.reference "b", .reference "c"]), ("b", [.reference "a"]), ("c", [.reference "c"]),
      ("d", [.text "x", .reference "a"])]
  distinct := by decide

theorem tangledTable_cycle? : tangledTable.cycle? = some ["a", "b"] := by
  have found : tangledTable.firstCycleIn tangledTable.finishOrder = some ["a", "b"] := by decide
  rw [cycle?, found, Option.map_some, List.mergeSort_of_pairwise (by decide)]

theorem tangledTable_reported :
    tangledTable.IsDefined ∧ ¬ tangledTable.IsAcyclic ∧
      tangledTable.IsCyclicComponent ["a", "b"] ∧
      tangledTable.resolve = .error (.semantic (.circular ["a", "b", "a"])) := by
  have defined : tangledTable.IsDefined := firstUndefined?_eq_none_iff.mp (by decide)
  have circular : ¬ tangledTable.IsAcyclic := fun acyclic =>
    acyclic "a" ((isCyclic_iff defined).mp (by decide))
  obtain ⟨first, others, component, resolves, _⟩ := reported_circle_is_component defined circular
  have known : tangledTable.resolve = .error (.semantic (.circular ["a", "b", "a"])) := by
    rw [resolve, firstUndefined?_eq_none_iff.mpr defined, tangledTable_cycle?]
    rfl
  obtain ⟨rfl, rest⟩ : first = "a" ∧ others ++ [first] = ["b", "a"] := by
    rw [known] at resolves
    simpa using resolves.symm
  obtain rfl : others = ["b"] := (List.append_left_inj ["a"]).mp rest
  exact ⟨defined, circular, component, known⟩

end FragmentTable
end GrammarBook
