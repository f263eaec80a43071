import GrammarBook.Proofs.Token.Relexing
import Mathlib.Data.List.MinMax

namespace GrammarBook

/-!
# The choice between kinds

The next token of a text is of the first kind that can be taken. It could as well be of the kind that
takes most. Two kinds are cut off the same text only where an intrinsic stands, whose name is that of
a rule too, and there they are cut off alike; so there is a choice of kind and never one of length.
For the same reason the order of the kinds does not matter, if the intrinsics keep their place before
the names of rules.
-/

namespace Kind

variable {kind one other : Kind} {order : List Kind} {text : List Char} {cut another : Cut}

/-! ## Kinds that begin alike -/

theorem mem_all (kind : Kind) : kind ∈ all := by
  cases kind <;> decide

/-- Kinds of one lead are the same, or one of the two pairs. -/
theorem eq_or_pair_of_lead (alike : one.lead = other.lead) :
    one = other ∨ (one = comment ∧ other = note ∨ one = note ∧ other = comment) ∨
      (one = intrinsic ∧ other = uppercase ∨ one = uppercase ∧ other = intrinsic) := by
  have pairs : ∀ one ∈ all, ∀ other ∈ all, one.lead = other.lead →
      one = other ∨ (one = comment ∧ other = note ∨ one = note ∧ other = comment) ∨
        (one = intrinsic ∧ other = uppercase ∨ one = uppercase ∧ other = intrinsic) := by
    decide
  exact pairs one (mem_all one) other (mem_all other) alike

theorem ne_nil_of_munch? (found : kind.munch? text = some cut) : cut.1 ≠ [] :=
  ne_nil_of_acceptsChars (munch?_sound found).2

/-- The first character of a text tells what can be cut off it, but for the two pairs. -/
theorem lead_eq_of_munch? (first : one.munch? text = some cut)
    (second : other.munch? text = some another) : one.lead = other.lead := by
  rcases munch?_sound first with ⟨splits, accepted⟩
  rcases munch?_sound second with ⟨splits', accepted'⟩
  rcases List.exists_cons_of_ne_nil (ne_nil_of_munch? first) with ⟨c, tail, same⟩
  rcases List.exists_cons_of_ne_nil (ne_nil_of_munch? second) with ⟨c', tail', same'⟩
  rw [same] at accepted
  rw [same'] at accepted'
  have sameText : c :: (tail ++ cut.2) = c' :: (tail' ++ another.2) := by
    rw [← List.cons_append, ← List.cons_append, ← same, ← same']
    exact splits.trans splits'.symm
  rw [← leadOf_of_accepts accepted, ← leadOf_of_accepts accepted', (List.cons.inj sameText).1]

/-- A note begins with a blank behind its mark, and a comment does not. -/
theorem not_munch?_comment_of_note (found : note.munch? text = some cut) :
    comment.munch? text = Option.none := by
  rcases munch?_sound found with ⟨splits, accepted⟩
  have notTaken : comment.take? (cut.1 ++ cut.2) = Option.none := take?_comment_of_note accepted
  rw [splits] at notTaken
  rw [← notTaken, take?]
  cases comment.munch? text with
  | none => rfl
  | some cut => rfl

/-- Two kinds are cut off the same text only if they are those of intrinsics and of rules' names. -/
theorem pair_of_munch? (first : one.munch? text = some cut)
    (second : other.munch? text = some another) (differ : one ≠ other) :
    one = intrinsic ∧ other = uppercase ∨ one = uppercase ∧ other = intrinsic := by
  rcases eq_or_pair_of_lead (lead_eq_of_munch? first second) with same | pair | pair
  · exact absurd same differ
  · rcases pair with ⟨rfl, rfl⟩ | ⟨rfl, rfl⟩
    · rw [not_munch?_comment_of_note second] at first
      cases first
    · rw [not_munch?_comment_of_note first] at second
      cases second
  · exact pair

theorem munch?_of_take? (taken : kind.take? text = some cut) : kind.munch? text = some cut :=
  (Option.filter_eq_some_iff.mp taken).1

/-- An intrinsic that may stand where it is found is cut off alike as the name of a rule. -/
theorem munch?_uppercase_of_intrinsic (taken : intrinsic.take? text = some cut) :
    uppercase.munch? text = some cut := by
  rcases Option.filter_eq_some_iff.mp taken with ⟨found, stands⟩
  rcases munch?_sound found with ⟨splits, accepted⟩
  have stop : cut.2.head?.any continuesName = false := by simpa [mayStand] using stands
  have ends : uppercase.EndsBefore cut.1 cut.2 := all_not_of_any stop
  have whole := munch?_exact (uppercase_of_intrinsic accepted) ends
  rwa [splits] at whole

/-- Whatever kinds can be taken of a text, they take the same of it. -/
theorem take?_unique (first : one.take? text = some cut) (second : other.take? text = some another) :
    cut = another := by
  have found := munch?_of_take? first
  have found' := munch?_of_take? second
  by_cases differ : one = other
  · subst differ
    exact Option.some.inj (first.symm.trans second)
  · rcases pair_of_munch? found found' differ with ⟨rfl, rfl⟩ | ⟨rfl, rfl⟩
    · exact Option.some.inj ((munch?_uppercase_of_intrinsic first).symm.trans found')
    · exact Option.some.inj (found.symm.trans (munch?_uppercase_of_intrinsic second))

/-! ## The longest lexeme -/

/-- The lexemes that can be taken of a text, in the order of their kinds. -/
def lexemes (order : List Kind) (text : List Char) : List (Kind × Cut) :=
  order.filterMap fun kind => (kind.take? text).map (kind, ·)

/-- The longest of the lexemes that can be taken, and of lexemes of one length the first. -/
def longestLexeme? (order : List Kind) (text : List Char) : Option (Kind × Cut) :=
  (lexemes order text).argmax fun lexeme => lexeme.2.1.length

theorem head?_lexemes (order : List Kind) (text : List Char) :
    (lexemes order text).head? = firstLexeme? order text :=
  List.head?_filterMap

theorem take?_of_mem_lexemes (member : (kind, cut) ∈ lexemes order text) :
    kind.take? text = some cut := by
  rcases List.mem_filterMap.mp member with ⟨candidate, _, hit⟩
  rcases Option.map_eq_some_iff.mp hit with ⟨found, taken, same⟩
  cases same
  exact taken

/-- A list that starts with a greatest element has it as its first greatest. -/
theorem argmax_cons_of_le {α : Type} {measure : α → Nat} {first : α} {others : List α}
    (greatest : ∀ member ∈ others, measure member ≤ measure first) :
    (first :: others).argmax measure = some first := by
  rw [List.argmax_cons]
  cases best : others.argmax measure with
  | none => rfl
  | some member => exact if_neg (Nat.not_lt.mpr (greatest member (List.argmax_mem best)))

/-- Since all lexemes are of one length, the first is the longest. -/
theorem longestLexeme?_eq (order : List Kind) (text : List Char) :
    longestLexeme? order text = firstLexeme? order text := by
  rw [longestLexeme?, ← head?_lexemes]
  cases candidates : lexemes order text with
  | nil => rfl
  | cons first others =>
      refine argmax_cons_of_le fun member inOthers => ?_
      have firstFound : (first.1, first.2) ∈ lexemes order text := by simp [candidates]
      have memberFound : (member.1, member.2) ∈ lexemes order text := by simp [candidates, inOthers]
      rw [take?_unique (take?_of_mem_lexemes memberFound) (take?_of_mem_lexemes firstFound)]

/-! ## Other orders -/

/-- Of two kinds only one comes before the other. -/
theorem not_mem_earlier_of_mem (before : one ∈ earlier order other) : other ∉ earlier order one := by
  induction order with
  | nil => exact List.not_mem_nil
  | cons head tail ih =>
      by_cases isOther : head = other
      · rw [isOther, earlier_cons_self] at before
        exact absurd before List.not_mem_nil
      · by_cases isOne : head = one
        · rw [isOne, earlier_cons_self]
          exact List.not_mem_nil
        · rw [earlier_cons_of_ne isOther] at before
          rw [earlier_cons_of_ne isOne]
          rcases List.mem_cons.mp before with same | later
          · exact absurd same.symm isOne
          · exact List.not_mem_cons_of_ne_of_not_mem (Ne.symm isOther) (ih later)

/-- Which kind is found first says nothing of the order but that intrinsics go before the names of
rules. -/
theorem firstLexeme?_iff (before : intrinsic ∈ earlier order uppercase) :
    firstLexeme? order text = some (kind, cut) ↔
      kind ∈ order ∧ kind.take? text = some cut ∧
        (kind = uppercase → intrinsic.take? text = none) := by
  rw [firstLexeme?_eq_some_iff]
  refine and_congr_right' (and_congr_right fun taken => ⟨?_, ?_⟩)
  · rintro noneEarlier rfl
    exact noneEarlier intrinsic before
  · intro noIntrinsic other inEarlier
    cases takenToo : other.take? text with
    | none => rfl
    | some another =>
        exfalso
        have differ : other ≠ kind := by
          rintro rfl
          exact not_mem_earlier_of_mem inEarlier inEarlier
        rcases pair_of_munch? (munch?_of_take? takenToo) (munch?_of_take? taken) differ with
          ⟨rfl, rfl⟩ | ⟨rfl, rfl⟩
        · rw [noIntrinsic rfl] at takenToo
          cases takenToo
        · exact not_mem_earlier_of_mem before inEarlier

/-- The next token is the same in every order of the kinds in which intrinsics go before the names of
rules. -/
theorem firstLexeme?_of_perm (perm : order.Perm scanOrder)
    (before : intrinsic ∈ earlier order uppercase) (text : List Char) :
    firstLexeme? order text = lexeme? text := by
  refine Option.ext fun ⟨kind, cut⟩ => ?_
  rw [lexeme?, firstLexeme?_iff before, firstLexeme?_iff (by decide), perm.mem_iff]

end Kind

namespace Token

/-- The tokens of a text that starts at the given place, as `scanFrom` finds them, with the kinds tried
in the given order. -/
def scanFromBy (order : List Kind) : Nat → Location → List Char → List Token
  | _, place, [] => [⟨.eof, "", place⟩]
  | 0, _, _ :: _ => []
  | bound + 1, place, c :: rest =>
    match Kind.firstLexeme? order (c :: rest) with
    | none => [⟨.error, String.ofList [c], place⟩]
    | some (kind, text, left) =>
      let following := scanFromBy order bound (place.advance text) left
      if kind.isImplicit then following else ⟨kind, String.ofList text, place⟩ :: following

/-- The tokens of a source, with the kinds tried in the given order. -/
def scanBy (order : List Kind) (source : String) : List Token :=
  scanFromBy order source.toList.length .start source.toList

/-- A scan depends on the order through the next token alone. -/
theorem scanFromBy_eq {order : List Kind}
    (same : ∀ text, Kind.firstLexeme? order text = Kind.lexeme? text) (bound : Nat)
    (place : Location) (text : List Char) :
    scanFromBy order bound place text = scanFrom bound place text := by
  induction bound generalizing place text with
  | zero => cases text <;> rfl
  | succ bound ih =>
      cases text with
      | nil => rfl
      | cons c rest =>
          rw [scanFromBy, scanFrom, same]
          cases Kind.lexeme? (c :: rest) with
          | none => rfl
          | some lexeme => simp only [ih]

end Token

namespace Kind

/-- What is taken of a text as its next token is never empty, and is the longest that any kind takes,
of the first kind to take so much. Of two kinds both are cut off the same text only if they are those
of intrinsics and of the names of rules; so a scan finds the same tokens in every order of the kinds
that has the intrinsics before the names. -/
theorem first_lexeme_is_longest :
    (∀ (kind : Kind) (text : List Char) (cut : Cut), kind.munch? text = some cut → cut.1 ≠ []) ∧
    (∀ text : List Char, lexeme? text = longestLexeme? scanOrder text) ∧
    (∀ (one other : Kind) (text : List Char) (cut another : Cut), one.munch? text = some cut →
      other.munch? text = some another → one ≠ other →
      one = intrinsic ∧ other = uppercase ∨ one = uppercase ∧ other = intrinsic) ∧
    ∀ order : List Kind, order.Perm scanOrder → intrinsic ∈ earlier order uppercase →
      ∀ source : String, Token.scanBy order source = Token.scan source := by
  refine ⟨fun _ _ _ => ne_nil_of_munch?, fun text => (longestLexeme?_eq scanOrder text).symm,
    fun _ _ _ _ _ => pair_of_munch?, fun order perm before source => ?_⟩
  exact Token.scanFromBy_eq (firstLexeme?_of_perm perm before) _ _ _

/-- The kinds in the opposite order, but for the names of rules, which stay behind the intrinsics. -/
def turnedOrder : List Kind :=
  [space, quantified, number, note, newline, lowercase, literal, intrinsic, uppercase, glyph,
    excluded, delimiter, comment]

/-- Notes before comments and blanks before all make no difference, where the names of intrinsics stand
alone and within longer names. -/
theorem turnedOrder_scans_alike :
    (intrinsic.munch? "ANYTHING".toList = some ("ANY".toList, "THING".toList) ∧
      uppercase.munch? "ANYTHING".toList = some ("ANYTHING".toList, []) ∧
      (intrinsic = intrinsic ∧ uppercase = uppercase ∨ intrinsic = uppercase ∧ uppercase = intrinsic)) ∧
    turnedOrder.Perm scanOrder ∧ intrinsic ∈ earlier turnedOrder uppercase ∧
    Token.scanBy turnedOrder "ANY ANYTHING! n" = Token.scan "ANY ANYTHING! n" := by
  have found : intrinsic.munch? "ANYTHING".toList = some ("ANY".toList, "THING".toList) := by decide
  have foundToo : uppercase.munch? "ANYTHING".toList = some ("ANYTHING".toList, []) := by decide
  have perm : turnedOrder.Perm scanOrder := by decide
  have before : intrinsic ∈ earlier turnedOrder uppercase := by decide
  exact ⟨⟨found, foundToo, first_lexeme_is_longest.2.2.1 _ _ _ _ _ found foundToo (by decide)⟩,
    perm, before, first_lexeme_is_longest.2.2.2 turnedOrder perm before _⟩

end Kind
end GrammarBook
