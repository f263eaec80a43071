import GrammarBook.Proofs.Token.Lexeme
import GrammarBook.Token.Scan

namespace GrammarBook

/-!
# Where tokens stand

A scan steps from place to place. What a place means is said here without steps: the line counts
the newlines before it, the position counts the characters behind the last of them. `Cover` then
says of a list of tokens that it accounts for a text: tokens and gaps of blanks alternate, nothing
is left over, and the last token tells whether the text came to its end.

A scan skips blanks one run at a time and carries only a place along, so the invariant of its loop
has to speak of the gap that has been skipped since the last token.
-/

namespace Location

/-- The place behind the given text. -/
def behind (before : List Char) : Location :=
  ⟨1 + before.count '\n', 1 + (before.reverse.takeWhile (· != '\n')).length⟩

/-- Stepping over a character comes to the place behind it. -/
theorem behind_concat (before : List Char) (c : Char) :
    behind (before ++ [c]) = (behind before).step c := by
  by_cases newline : c = '\n'
  · subst newline
    simp [behind, step, Nat.add_assoc]
  · simp [behind, step, newline, Nat.add_assoc]

theorem behind_append (before text : List Char) :
    behind (before ++ text) = (behind before).advance text := by
  induction text generalizing before with
  | nil => simp
  | cons c rest ih =>
      calc
        behind (before ++ c :: rest) = behind ((before ++ [c]) ++ rest) := by simp
        _ = (behind (before ++ [c])).advance rest := ih _
        _ = (behind before).advance (c :: rest) := by rw [behind_concat]; rfl

/-- The order of places in a text. -/
def Precedes (left right : Location) : Prop :=
  left.line < right.line ∨ left.line = right.line ∧ left.position < right.position

theorem Precedes.trans {first second third : Location} (left : first.Precedes second)
    (right : second.Precedes third) : first.Precedes third := by
  unfold Precedes at *
  omega

theorem precedes_step (place : Location) (c : Char) : place.Precedes (place.step c) := by
  rw [step]
  split
  · exact Or.inl (Nat.lt_succ_self _)
  · exact Or.inr ⟨rfl, Nat.lt_succ_self _⟩

/-- Every character takes the place further. -/
theorem behind_precedes (before : List Char) {text : List Char} (nonempty : text ≠ []) :
    (behind before).Precedes (behind (before ++ text)) := by
  induction text generalizing before with
  | nil => exact absurd rfl nonempty
  | cons c rest ih =>
      have one : (behind before).Precedes (behind (before ++ [c])) := by
        rw [behind_concat]
        exact precedes_step _ c
      by_cases last : rest = []
      · rw [last]
        exact one
      · have more := ih (before ++ [c]) last
        rw [List.append_assoc] at more
        exact one.trans more

end Location

namespace Token

/-- Spaces and tabs, of which there may be none. -/
def IsGap (gap : List Char) : Prop := ∀ c ∈ gap, c = ' ' ∨ c = '\t'

theorem IsGap.append {front back : List Char} (left : IsGap front) (right : IsGap back) :
    IsGap (front ++ back) := by
  intro c member
  rcases List.mem_append.mp member with here | there
  · exact left c here
  · exact right c there

/-- The tokens account for the text that follows what has been read before. -/
inductive Cover : List Char → List Char → List Token → Prop
  | finish {before gap : List Char} (blank : IsGap gap) :
      Cover before gap [⟨.eof, "", .behind (before ++ gap)⟩]
  | halt {before gap rest : List Char} {c : Char} (blank : IsGap gap)
      (illegal : Kind.NoTokenBegins (c :: rest)) :
      Cover before (gap ++ c :: rest)
        [⟨.error, String.ofList [c], .behind (before ++ gap)⟩]
  | token {before gap text rest : List Char} {kind : Kind} {tokens : List Token}
      (blank : IsGap gap) (explicit : kind ≠ .space ∧ kind ≠ .eof ∧ kind ≠ .error)
      (nonempty : text ≠ []) (lexeme : Kind.lexeme? (text ++ rest) = some (kind, text, rest))
      (later : Cover (before ++ gap ++ text) rest tokens) :
      Cover before (gap ++ text ++ rest)
        (⟨kind, String.ofList text, .behind (before ++ gap)⟩ :: tokens)

/-- Blanks before a covered text may be counted to its first gap. -/
theorem Cover.skip {before gap text : List Char} {tokens : List Token} (blank : IsGap gap)
    (cover : Cover (before ++ gap) text tokens) : Cover before (gap ++ text) tokens := by
  generalize start : before ++ gap = reached at cover
  cases cover with
  | finish inner =>
      rw [← start, List.append_assoc]
      exact .finish (blank.append inner)
  | halt inner illegal =>
      rw [← start, List.append_assoc, ← List.append_assoc gap]
      exact .halt (blank.append inner) illegal
  | token inner explicit nonempty lexeme later =>
      subst start
      have joined := Cover.token (blank.append inner) explicit nonempty lexeme
        (by rw [← List.append_assoc before]; exact later)
      simp only [List.append_assoc] at joined ⊢
      exact joined

/-- A run of blanks is a gap. -/
theorem isGap_of_accepts {text : List Char} (accepted : Kind.space.acceptsChars text = true) :
    IsGap text := by
  rw [Kind.acceptsChars, Bool.and_eq_true, List.all_eq_true] at accepted
  intro c member
  simpa [Kind.isBlank] using accepted.2 c member

/-- The loop of a scan. What has been read stands before the gap that has been skipped since; every
round takes a character at least, so that the bound is never reached. -/
theorem cover_scanFrom (bound : Nat) (before text : List Char) (enough : text.length ≤ bound) :
    Cover before text (scanFrom bound (.behind before) text) := by
  induction bound generalizing before text with
  | zero =>
      have empty := List.eq_nil_of_length_eq_zero (Nat.le_zero.mp enough)
      subst empty
      have noGap : IsGap [] := fun _ member => absurd member List.not_mem_nil
      simpa [scanFrom] using @Cover.finish before [] noGap
  | succ bound ih =>
      have noGap : IsGap [] := fun _ member => absurd member List.not_mem_nil
      cases text with
      | nil => simpa [scanFrom] using @Cover.finish before [] noGap
      | cons c rest =>
          rw [scanFrom]
          cases found : Kind.lexeme? (c :: rest) with
          | none =>
              have illegal := Kind.lexeme?_eq_none_iff.mp found
              simpa using @Cover.halt before [] rest c noGap illegal
          | some lexeme =>
              obtain ⟨kind, front, back⟩ := lexeme
              obtain ⟨splits, accepted, _⟩ := Kind.lexeme?_sound found
              have nonempty := Kind.ne_nil_of_acceptsChars accepted
              have shorter : back.length ≤ bound := by
                have total := congrArg List.length splits
                have some := List.length_pos_iff.mpr nonempty
                rw [List.length_append] at total
                omega
              have later := ih (before ++ front) back shorter
              rw [Location.behind_append] at later
              by_cases implicit : kind.isImplicit = true
              · have isSpace : kind = .space := by simpa [Kind.isImplicit] using implicit
                subst isSpace
                simp only [implicit, if_true]
                rw [← splits]
                exact later.skip (isGap_of_accepts accepted)
              · have explicit : kind ≠ .space ∧ kind ≠ .eof ∧ kind ≠ .error := by
                  refine ⟨?_, ?_, ?_⟩
                  · rintro rfl
                    exact implicit rfl
                  · rintro rfl
                    cases accepted
                  · rintro rfl
                    cases accepted
                rw [← splits] at found
                have laterBehind : Cover (before ++ [] ++ front) back
                    (scanFrom bound ((Location.behind before).advance front) back) := by
                  simpa [Location.behind_append] using later
                have joined := Cover.token noGap explicit nonempty found laterBehind
                simpa [implicit, splits] using joined

/-- A scan accounts for its whole source. -/
theorem cover_scan (source : String) : Cover [] source.toList (scan source) :=
  cover_scanFrom source.toList.length [] source.toList (Nat.le_refl _)

/-- A covering token but the last was cut off where it stands in the text. -/
theorem Cover.exists_of_mem {before text : List Char} {tokens : List Token} {token : Token}
    (cover : Cover before text tokens) (member : token ∈ tokens) (notEof : token.kind ≠ .eof)
    (notError : token.kind ≠ .error) :
    ∃ reached rest, before ++ text = reached ++ token.text.toList ++ rest ∧
      token.place = .behind reached ∧
      Kind.lexeme? (token.text.toList ++ rest) = some (token.kind, token.text.toList, rest) := by
  induction cover with
  | finish =>
      rw [List.mem_singleton.mp member] at notEof
      exact absurd rfl notEof
  | halt =>
      rw [List.mem_singleton.mp member] at notError
      exact absurd rfl notError
  | @token before gap text rest kind tokens blank explicit nonempty lexeme later ih =>
      rcases List.mem_cons.mp member with rfl | inLater
      · refine ⟨before ++ gap, rest, ?_, rfl, ?_⟩
        · simp only [String.toList_ofList, List.append_assoc]
        · rw [String.toList_ofList]
          exact lexeme
      · have further := ih inLater
        simp only [List.append_assoc] at further ⊢
        exact further

/-- All covering tokens stand at places behind what was read before. -/
theorem Cover.place_of_mem {before text : List Char} {tokens : List Token} {token : Token}
    (cover : Cover before text tokens) (member : token ∈ tokens) :
    ∃ more, token.place = .behind (before ++ more) := by
  induction cover with
  | @finish before gap blank =>
      rw [List.mem_singleton.mp member]
      exact ⟨gap, rfl⟩
  | @halt before gap rest c blank illegal =>
      rw [List.mem_singleton.mp member]
      exact ⟨gap, rfl⟩
  | @token before gap text rest kind tokens blank explicit nonempty lexeme later ih =>
      rcases List.mem_cons.mp member with rfl | inLater
      · exact ⟨gap, rfl⟩
      · obtain ⟨more, place⟩ := ih inLater
        exact ⟨gap ++ text ++ more, by rw [place]; simp only [List.append_assoc]⟩

/-- The places of covering tokens ascend, since every token but the last has characters. -/
theorem Cover.ascends {before text : List Char} {tokens : List Token}
    (cover : Cover before text tokens) :
    tokens.Pairwise fun left right => left.place.Precedes right.place := by
  induction cover with
  | finish => exact List.pairwise_singleton ..
  | halt => exact List.pairwise_singleton ..
  | @token before gap text rest kind tokens blank explicit nonempty lexeme later ih =>
      refine List.pairwise_cons.mpr ⟨fun other inLater => ?_, ih⟩
      obtain ⟨more, place⟩ := later.place_of_mem inLater
      rw [place, List.append_assoc]
      exact Location.behind_precedes (before ++ gap) (by simp [nonempty])

/-- A scan loses nothing of its source and puts every token where it stands: tokens with characters
alternate with gaps of blanks up to one token for the end of the source, or for the first character
at which no token begins, and their places ascend. -/
theorem scan_covers_source (source : String) :
    Cover [] source.toList (scan source) ∧
      (scan source).Pairwise fun left right => left.place.Precedes right.place :=
  ⟨cover_scan source, (cover_scan source).ascends⟩

end Token
end GrammarBook
