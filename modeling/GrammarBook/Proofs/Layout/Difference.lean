import GrammarBook.Proofs.Token.Placement
import GrammarBook.RoundTrip

namespace GrammarBook
namespace RoundTrip

/-!
# Where texts differ

A round trip that changes a text reports one place. It is the place behind the longest text with which
both of the compared texts begin, counted as the places of tokens are, also where one of them ends
there and where one of them goes on with a newline.
-/

/-- Both texts begin with the front, and with none that is longer. -/
structure IsLongestShared (front left right : List Char) : Prop where
  begins_left : front <+: left
  begins_right : front <+: right
  longest : ∀ text, text <+: left → text <+: right → text.length ≤ front.length

namespace IsLongestShared

variable {front other left right : List Char}

theorem unique (one : IsLongestShared front left right) (two : IsLongestShared other left right) :
    other = front :=
  have shorter := one.longest other two.begins_left two.begins_right
  have longer := two.longest front one.begins_left one.begins_right
  (List.prefix_of_prefix_length_le two.begins_left one.begins_left shorter).eq_of_length
    (Nat.le_antisymm shorter longer)

/-- Texts that share no first character share nothing. -/
theorem nil (apart : ∀ c, left.head? = some c → right.head? ≠ some c) :
    IsLongestShared [] left right where
  begins_left := List.nil_prefix
  begins_right := List.nil_prefix
  longest text inLeft inRight := by
    cases text with
    | nil => exact Nat.le_refl 0
    | cons c text =>
        obtain ⟨_, rfl⟩ := inLeft
        obtain ⟨_, rfl⟩ := inRight
        exact absurd rfl (apart c rfl)

theorem cons (shared : IsLongestShared front left right) (c : Char) :
    IsLongestShared (c :: front) (c :: left) (c :: right) where
  begins_left := List.cons_prefix_cons.mpr ⟨rfl, shared.begins_left⟩
  begins_right := List.cons_prefix_cons.mpr ⟨rfl, shared.begins_right⟩
  longest text inLeft inRight := by
    cases text with
    | nil => exact Nat.zero_le _
    | cons d text =>
        obtain ⟨_, inLeft⟩ := List.cons_prefix_cons.mp inLeft
        obtain ⟨_, inRight⟩ := List.cons_prefix_cons.mp inRight
        exact Nat.succ_le_succ (shared.longest text inLeft inRight)

end IsLongestShared

/-! ## The search -/

theorem differenceFrom_self (place : Location) (text : List Char) :
    differenceFrom place text text = none := by
  induction text generalizing place with
  | nil => rfl
  | cons c text ih => rw [differenceFrom, if_pos rfl, ih]

/-- Having agreed on what was read before, two different texts are found to differ behind the longest
text that they share from there on. -/
theorem differenceFrom_of_ne (before : List Char) {left right : List Char} (differ : left ≠ right) :
    ∃ front, IsLongestShared front left right ∧
      differenceFrom (.behind before) left right = some (.behind (before ++ front)) := by
  induction left generalizing before right with
  | nil =>
      cases right with
      | nil => exact absurd rfl differ
      | cons b right => exact ⟨[], .nil nofun, by rw [differenceFrom, List.append_nil] <;> nofun⟩
  | cons a left ih =>
      cases right with
      | nil => exact ⟨[], .nil nofun, by rw [differenceFrom, List.append_nil] <;> nofun⟩
      | cons b right =>
          by_cases same : a = b
          · subst same
            obtain ⟨front, shared, found⟩ := ih (before ++ [a]) fun same => differ (congrArg _ same)
            refine ⟨a :: front, shared.cons a, ?_⟩
            rw [differenceFrom, if_pos rfl, ← Location.behind_concat, found, List.append_assoc]
            rfl
          · refine ⟨[], .nil ?_, by rw [differenceFrom, if_neg same, List.append_nil]⟩
            rintro c ⟨⟩ ⟨⟩
            exact same rfl

theorem difference_eq_none_iff {left right : String} :
    difference left right = none ↔ left = right := by
  by_cases same : left = right
  · subst same
    exact iff_of_true (differenceFrom_self ..) rfl
  · obtain ⟨front, _, found⟩ :=
      differenceFrom_of_ne [] fun sameChars => same (String.toList_inj.mp sameChars)
    refine iff_of_false (fun nothing => ?_) same
    cases nothing.symm.trans found

/-! ## The report -/

/-- The texts that are compared: the source and its canonical text where these differ, else that text
and its own canonical text. -/
def compared (trip : RoundTrip) : String × String :=
  if trip.original ≠ trip.formatted then (trip.original, trip.formatted)
  else (trip.formatted, trip.reformatted)

theorem firstDifference_eq (trip : RoundTrip) :
    trip.firstDifference = difference trip.compared.1 trip.compared.2 := by
  unfold firstDifference isCanonical compared
  by_cases same : trip.original = trip.formatted
  · simp [same]
  · simp [same]

theorem compared_eq_iff (trip : RoundTrip) :
    trip.compared.1 = trip.compared.2 ↔ trip.isCanonical = true ∧ trip.isIdempotent = true := by
  unfold compared isCanonical isIdempotent
  by_cases same : trip.original = trip.formatted
  · simp [same]
  · simp [same]

/-- A round trip reports no difference just if its source is canonical and formatting is idempotent on
it. Otherwise it reports the place behind the longest text that the compared texts share: the line
counts the newlines of that text, the position its characters behind the last of them. -/
theorem first_difference_behind_shared (trip : RoundTrip) :
    (trip.firstDifference = none ↔ trip.isCanonical = true ∧ trip.isIdempotent = true) ∧
    (¬ (trip.isCanonical = true ∧ trip.isIdempotent = true) →
      ∃ front, IsLongestShared front trip.compared.1.toList trip.compared.2.toList ∧
        (∀ other, IsLongestShared other trip.compared.1.toList trip.compared.2.toList →
          other = front) ∧
        trip.firstDifference =
          some ⟨1 + front.count '\n', 1 + (front.reverse.takeWhile (· != '\n')).length⟩) := by
  rw [firstDifference_eq, difference_eq_none_iff, compared_eq_iff]
  refine ⟨Iff.rfl, fun changed => ?_⟩
  have differ : trip.compared.1.toList ≠ trip.compared.2.toList := fun same =>
    changed ((compared_eq_iff trip).mp (String.toList_inj.mp same))
  obtain ⟨front, shared, found⟩ := differenceFrom_of_ne [] differ
  exact ⟨front, shared, fun _ => shared.unique, found⟩

/-- A text that goes on with a newline where the other one ends. -/
def endedTrip : RoundTrip := ⟨"ab\ncd", "ab\ncd", "ab\ncd\n"⟩

/-- The place is that of the newline. -/
theorem endedTrip_differs :
    ¬ (endedTrip.isCanonical = true ∧ endedTrip.isIdempotent = true) ∧
      IsLongestShared "ab\ncd".toList "ab\ncd".toList "ab\ncd\n".toList ∧
      endedTrip.firstDifference = some ⟨2, 3⟩ := by
  have changed : ¬ (endedTrip.isCanonical = true ∧ endedTrip.isIdempotent = true) := by decide
  obtain ⟨front, shared, _, found⟩ := (first_difference_behind_shared endedTrip).2 changed
  have whole : IsLongestShared "ab\ncd".toList "ab\ncd".toList "ab\ncd\n".toList :=
    ⟨List.prefix_refl _, ⟨['\n'], rfl⟩, fun _ begins _ => begins.length_le⟩
  obtain rfl : "ab\ncd".toList = front := shared.unique whole
  exact ⟨changed, whole, found⟩

end RoundTrip
end GrammarBook
