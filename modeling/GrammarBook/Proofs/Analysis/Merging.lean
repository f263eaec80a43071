import GrammarBook.Analysis.Attribute
import Mathlib.Data.List.Count
import Mathlib.Data.List.Induction
import Mathlib.Data.List.Nodup

namespace GrammarBook

/-!
# Merged occurrences

Merging keeps one occurrence of each identifier, in the place of the first. It is plural where the
identifier was repeated, and otherwise as plural as its only occurrence was. An attribute tells by
its kind and by its name which identifier it stands for.
-/

/-! ## Lists without repetitions -/

section Firsts

variable {α : Type} [DecidableEq α] {item : α} {items : List α}

theorem eraseDups_concat_of_mem (known : item ∈ items) :
    (items ++ [item]).eraseDups = items.eraseDups := by
  rw [List.eraseDups_append, List.cons_removeAll, if_neg (by simpa using known)]
  exact List.append_nil _

theorem eraseDups_concat_of_notMem (new : item ∉ items) :
    (items ++ [item]).eraseDups = items.eraseDups ++ [item] := by
  rw [List.eraseDups_append, List.cons_removeAll, if_pos (by simpa using new)]
  rfl

theorem nodup_eraseDups (items : List α) : items.eraseDups.Nodup := by
  induction items using List.reverseRecOn with
  | nil => exact List.nodup_nil
  | append_singleton items item ih =>
      by_cases known : item ∈ items
      · rw [eraseDups_concat_of_mem known]
        exact ih
      · rw [eraseDups_concat_of_notMem known, ← List.concat_eq_append, List.nodup_concat]
        exact ⟨fun member => known (List.mem_eraseDups.mp member), ih⟩

end Firsts

namespace Occurrence

variable {occurrence : Occurrence} {occurrences : List Occurrence} {identifier : Identifier}

/-! ## One more occurrence -/

theorem merge_of_notMem (new : occurrence.identifier ∉ occurrences.map (·.identifier)) :
    merge occurrence occurrences = occurrences ++ [occurrence] := by
  induction occurrences with
  | nil => rfl
  | cons first others ih =>
      rcases List.ne_and_not_mem_of_not_mem_cons new with ⟨different, new⟩
      rw [merge, if_neg (Ne.symm different), ih new, List.cons_append]

/-- The plurality of each identifier after one more occurrence of the given one. -/
def repeating (plurality : Identifier → Bool) (again identifier : Identifier) : Bool :=
  decide (identifier = again) || plurality identifier

theorem merge_of_mem {identifiers : List Identifier} (distinct : identifiers.Nodup)
    (known : occurrence.identifier ∈ identifiers) (plurality : Identifier → Bool) :
    merge occurrence (identifiers.map fun identifier => ⟨identifier, plurality identifier⟩) =
      identifiers.map fun identifier =>
        ⟨identifier, repeating plurality occurrence.identifier identifier⟩ := by
  induction identifiers with
  | nil => cases known
  | cons first others ih =>
      rcases List.nodup_cons.mp distinct with ⟨unique, distinct⟩
      rw [List.map_cons, List.map_cons, merge]
      split
      · rename_i same
        have same : first = occurrence.identifier := same
        subst same
        refine congrArg₂ List.cons (by simp [repeating]) (List.map_congr_left fun other among => ?_)
        have different : other ≠ occurrence.identifier := by
          rintro rfl
          exact unique among
        simp [repeating, different]
      · rename_i different
        rw [ih distinct ((List.mem_cons.mp known).resolve_left (Ne.symm different))]
        simp [repeating, different]

/-! ## All occurrences -/

/-- Whether the identifier has several occurrences, or a plural one. -/
def isPluralAmong (occurrences : List Occurrence) (identifier : Identifier) : Bool :=
  decide (2 ≤ (occurrences.map (·.identifier)).count identifier) ||
    occurrences.any fun occurrence =>
      decide (occurrence.identifier = identifier) && occurrence.isPlural

theorem isPluralAmong_concat_of_ne (different : identifier ≠ occurrence.identifier) :
    isPluralAmong (occurrences ++ [occurrence]) identifier =
      isPluralAmong occurrences identifier := by
  simp [isPluralAmong, Ne.symm different]

theorem isPluralAmong_concat_of_mem
    (known : occurrence.identifier ∈ occurrences.map (·.identifier)) :
    isPluralAmong (occurrences ++ [occurrence]) occurrence.identifier = true := by
  have earlier := List.count_pos_iff.mpr known
  have repeated : 2 ≤ ((occurrences ++ [occurrence]).map (·.identifier)).count
      occurrence.identifier := by
    rw [List.map_append, List.map_singleton, List.count_append, List.count_singleton_self]
    exact Nat.succ_le_succ earlier
  rw [isPluralAmong, decide_eq_true repeated, Bool.true_or]

theorem isPluralAmong_concat_of_notMem
    (new : occurrence.identifier ∉ occurrences.map (·.identifier)) :
    isPluralAmong (occurrences ++ [occurrence]) occurrence.identifier = occurrence.isPlural := by
  have once :
      ((occurrences ++ [occurrence]).map (·.identifier)).count occurrence.identifier = 1 := by
    rw [List.map_append, List.map_singleton, List.count_append, List.count_singleton_self,
      List.count_eq_zero.mpr new]
  have others : (occurrences.any fun other =>
      decide (other.identifier = occurrence.identifier) && other.isPlural) = false := by
    rw [List.any_eq_false]
    intro other among
    have different : other.identifier ≠ occurrence.identifier :=
      fun same => new (same ▸ List.mem_map_of_mem among)
    simp [different]
  rw [isPluralAmong, once, List.any_append, others]
  simp

theorem consolidate_concat :
    consolidate (occurrences ++ [occurrence]) = merge occurrence (consolidate occurrences) := by
  rw [consolidate, List.foldl_concat]
  rfl

/-- Each identifier once, in the order of the first occurrences. -/
theorem consolidate_eq (occurrences : List Occurrence) :
    consolidate occurrences = (occurrences.map (·.identifier)).eraseDups.map fun identifier =>
      ⟨identifier, isPluralAmong occurrences identifier⟩ := by
  induction occurrences using List.reverseRecOn with
  | nil => rfl
  | append_singleton occurrences occurrence ih =>
      rw [consolidate_concat, ih, List.map_append, List.map_singleton]
      by_cases known : occurrence.identifier ∈ occurrences.map (·.identifier)
      · rw [eraseDups_concat_of_mem known,
          merge_of_mem (nodup_eraseDups _) (List.mem_eraseDups.mpr known)]
        refine List.map_congr_left fun identifier _ => ?_
        by_cases same : identifier = occurrence.identifier
        · subst same
          rw [isPluralAmong_concat_of_mem known]
          simp [repeating]
        · simp [repeating, same, isPluralAmong_concat_of_ne same]
      · have new : occurrence.identifier ∉
            ((occurrences.map (·.identifier)).eraseDups.map fun identifier =>
              (⟨identifier, isPluralAmong occurrences identifier⟩ : Occurrence)).map
                (·.identifier) := by
          simpa using known
        rw [eraseDups_concat_of_notMem known, merge_of_notMem new, List.map_append]
        refine congrArg₂ (· ++ ·) (List.map_congr_left fun identifier among => ?_) ?_
        · have different : identifier ≠ occurrence.identifier := by
            rintro rfl
            exact known (List.mem_eraseDups.mp among)
          rw [isPluralAmong_concat_of_ne different]
        · rw [List.map_singleton, isPluralAmong_concat_of_notMem known]

theorem identifiers_consolidate (occurrences : List Occurrence) :
    (consolidate occurrences).map (·.identifier) =
      (occurrences.map (·.identifier)).eraseDups := by
  rw [consolidate_eq, List.map_map]
  exact List.map_id'' (fun _ => rfl) _

theorem isPlural_of_mem_consolidate (member : occurrence ∈ consolidate occurrences) :
    occurrence.isPlural = isPluralAmong occurrences occurrence.identifier := by
  rw [consolidate_eq] at member
  rcases List.mem_map.mp member with ⟨identifier, _, rfl⟩
  rfl

end Occurrence

/-! ## Attributes of occurrences -/

namespace Attribute

/-- The identifier that an attribute stands for. -/
def referent (entry : Attribute) : Identifier :=
  match entry.kind with
  | .node => .upper entry.identifier
  | .token => .lower entry.identifier

theorem name_referent (entry : Attribute) : entry.referent.name = entry.identifier := by
  rcases entry with ⟨_, _, _, _ | _⟩ <;> rfl

theorem attributeKind_referent (entry : Attribute) :
    entry.referent.attributeKind = entry.kind := by
  rcases entry with ⟨_, _, _, _ | _⟩ <;> rfl

/-- The occurrence that an attribute stands for. -/
def occurrence (entry : Attribute) : Occurrence := ⟨entry.referent, entry.isPlural⟩

end Attribute

namespace Occurrence

/-- All of an occurrence can be told from its attribute, whatever its name. -/
theorem occurrence_toAttribute (occurrence : Occurrence) (earlier : Nat) :
    (occurrence.toAttribute earlier).occurrence = occurrence := by
  rcases occurrence with ⟨_ | _, isPlural⟩ <;> rfl

theorem map_attributesAfter (stems : List String) (occurrences : List Occurrence) :
    (attributesAfter stems occurrences).map Attribute.occurrence = occurrences := by
  induction occurrences generalizing stems with
  | nil => rfl
  | cons first others ih =>
      rw [attributesAfter, List.map_cons, occurrence_toAttribute, ih]

theorem map_attributes (occurrences : List Occurrence) :
    (attributes occurrences).map Attribute.occurrence = occurrences :=
  map_attributesAfter [] occurrences

end Occurrence
end GrammarBook
