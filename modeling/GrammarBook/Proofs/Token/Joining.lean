import GrammarBook.Proofs.Token.Choice
import GrammarBook.Proofs.Token.Placement

namespace GrammarBook

/-!
# Texts put together

A token that stands in a text stands in another one just so, if the same character comes behind it.
Behind newlines and comments not even that matters; comments alone look further, for a closing line.
So a text that ends with a newline or a comment can be followed by other words, and where it is
followed by some, it can be cut off there. A text is written as words just where its scan has these
words.
-/

namespace Kind

/-! ## Tokens in front of another text -/

section Anew

variable {kind : Kind} {text rest rest' : List Char}

theorem Cut.eq_of_prepend {cut : Cut} {front body : List Char}
    (same : cut.prepend front = (front ++ body, rest)) : cut = (body, rest) := by
  obtain ⟨sameFront, sameBack⟩ := Prod.mk.inj same
  exact Prod.ext (List.append_cancel_left sameFront) sameBack

theorem Cut.eq_of_nonempty? {cut other : Cut} (found : cut.nonempty? = some other) : cut = other := by
  rw [Cut.nonempty?] at found
  split at found
  · cases found
  · exact Option.some.inj found

/-- A run stops at the character behind it. -/
theorem stop_of_cutWhile {holds : Char → Bool} {run : List Char}
    (found : cutWhile holds (run ++ rest) = (run, rest)) (sameHead : rest'.head? = rest.head?) :
    rest'.head?.all (!holds ·) = true := by
  rw [cutWhile_eq] at found
  have stop := stop_dropWhile holds (run ++ rest)
  rwa [(Prod.mk.inj found).2, ← sameHead] at stop

/-- A name that ends before a character does so before any text that begins with it. -/
theorem cutNameTail_anew {tail : List Char} (found : cutNameTail (tail ++ rest) = (tail, rest))
    (sameHead : rest'.head? = rest.head?) : cutNameTail (tail ++ rest') = (tail, rest') := by
  induction tail with
  | nil =>
      have nothing : cutNameTail rest = ([], rest) := found
      have stop : rest.head?.any continuesName = false :=
        stop_of_cutNameTail (congrArg Prod.snd nothing)
      exact cutNameTail_append rfl (sameHead ▸ all_not_of_any stop)
  | cons c tail ih =>
      rw [List.cons_append, cutNameTail] at found ⊢
      by_cases underscore : c = '_'
      · rw [if_pos underscore] at found ⊢
        obtain rfl : tail = [] := (List.cons.inj (Prod.mk.inj found).1).2.symm
        rw [underscore]
        rfl
      · rw [if_neg underscore] at found ⊢
        by_cases word : isWordChar c = true
        · rw [if_pos word] at found ⊢
          rw [ih (Cut.eq_of_prepend found)]
          rfl
        · rw [if_neg word] at found
          cases (Prod.mk.inj found).1

/-- What follows does not matter to the kind, but for a closing line behind a comment. -/
def isTerminal (kind : Kind) : Bool := kind == newline || kind == comment

/-- The texts look alike to a token of the kind that ends before them. -/
structure LooksAlike (kind : Kind) (rest rest' : List Char) : Prop where
  head : isTerminal kind = false → rest'.head? = rest.head?
  closed : kind = comment → closingLine <:+: rest' → closingLine <:+: rest

theorem munch?_anew (found : kind.munch? (text ++ rest) = some (text, rest))
    (alike : kind.LooksAlike rest rest') : kind.munch? (text ++ rest') = some (text, rest') := by
  have accepted : kind.acceptsChars text = true := (munch?_sound found).2
  cases kind with
  | comment => exact endsBefore_comment found (alike.closed rfl)
  | delimiter | intrinsic =>
      exact cutWord_exact (by decide) (List.contains_iff_mem.mp accepted) rest'
  | excluded | glyph | literal | newline | quantified => exact munch?_exact accepted True.intro
  | error | eof => cases accepted
  | number | space =>
      have run := Cut.eq_of_nonempty? found
      exact munch?_exact accepted (stop_of_cutWhile run (alike.head rfl))
  | note =>
      refine munch?_exact accepted ?_
      unfold acceptsChars at accepted
      split at accepted
      case h_10 run _ =>
        have cut : (cutWhile isVisible (run ++ rest)).prepend ['!', ' '] =
            (['!', ' '] ++ run, rest) := Option.some.inj found
        exact stop_of_cutWhile (Cut.eq_of_prepend cut) (alike.head rfl)
      all_goals contradiction
  | lowercase | uppercase =>
      cases text with
      | nil => cases accepted
      | cons c tail =>
          rw [List.cons_append, munch?] at found ⊢
          split at found
          · next first =>
            have name := Cut.eq_of_prepend (Option.some.inj found)
            rw [if_pos first, cutNameTail_anew name (alike.head rfl)]
            rfl
          · cases found

/-- A token may stand before any text that looks alike to it. -/
theorem take?_anew (taken : kind.take? (text ++ rest) = some (text, rest))
    (alike : kind.LooksAlike rest rest') : kind.take? (text ++ rest') = some (text, rest') := by
  obtain ⟨found, stands⟩ := Option.filter_eq_some_iff.mp taken
  rw [take?, munch?_anew found alike, Option.filter_some]
  apply if_pos
  by_cases isIntrinsic : kind = intrinsic
  · subst isIntrinsic
    simpa only [mayStand, alike.head rfl] using stands
  · simp [mayStand, isIntrinsic]

/-- A token is the next one of any text that begins with it and goes on in a way that looks alike. -/
theorem lexeme?_anew (found : lexeme? (text ++ rest) = some (kind, text, rest))
    (alike : kind.LooksAlike rest rest') : lexeme? (text ++ rest') = some (kind, text, rest') := by
  obtain ⟨member, taken, noIntrinsic⟩ := (firstLexeme?_iff (by decide)).mp found
  have taken' := take?_anew taken alike
  refine (firstLexeme?_iff (by decide)).mpr ⟨member, taken', ?_⟩
  rintro rfl
  cases other : intrinsic.take? (text ++ rest') with
  | none => rfl
  | some cut =>
      -- The intrinsic would be the very name, which could then be taken where it stood before.
      obtain rfl := take?_unique other taken'
      have back : intrinsic.LooksAlike rest' rest := ⟨fun _ => (alike.head rfl).symm, nofun⟩
      rw [take?_anew other back] at noIntrinsic
      cases noIntrinsic rfl

end Anew

end Kind

namespace Token

/-! ## Texts and their words -/

/-- The last word is a newline or a comment, if there is one. -/
def EndsLine (words : List Word) : Prop := ∀ word ∈ words.getLast?, word.1.isTerminal = true

theorem EndsLine.tail {word : Word} {words : List Word} (ends : EndsLine (word :: words)) :
    EndsLine words := by
  cases words with
  | nil => exact nofun
  | cons next words => exact ends

theorem EndsLine.append {front back : List Word} (ends : EndsLine back)
    (none : back = [] → EndsLine front) : EndsLine (front ++ back) := by
  cases back with
  | nil =>
      rw [List.append_nil]
      exact none rfl
  | cons word back => rwa [EndsLine, List.getLast?_append_of_ne_nil _ (List.cons_ne_nil word back)]

section Lexed

variable {text front back : List Char} {words others : List Word}

/-- A text with a comment in it has a closing line. -/
theorem Lexed.closingLine (lexed : Lexed text words)
    (comment : ∃ word ∈ words, word.1 = .comment) : Kind.closingLine <:+: text := by
  induction lexed with
  | finish =>
      obtain ⟨word, member, _⟩ := comment
      cases member
  | blank isBlank later ih => exact (ih comment).trans (List.suffix_cons ..).isInfix
  | @word kind front rest words explicit lexeme later ih =>
      obtain ⟨word, member, isComment⟩ := comment
      rcases List.mem_cons.mp member with rfl | inLater
      · obtain rfl : kind = .comment := isComment
        have within := Kind.closingLine_infix_comment (Kind.lexeme?_sound lexeme).2.1
        exact within.trans (List.prefix_append ..).isInfix
      · exact (ih ⟨word, inLater, isComment⟩).trans (List.suffix_append ..).isInfix

/-- Words without comments may be written behind a text that ends with a newline or a comment. -/
theorem Lexed.append (lexed : Lexed front words) (ends : EndsLine words)
    (behind : Lexed back others) (noComment : ∀ word ∈ others, word.1 ≠ .comment) :
    Lexed (front ++ back) (words ++ others) := by
  induction lexed with
  | finish => exact behind
  | blank isBlank later ih => exact .blank isBlank (ih ends)
  | @word kind text rest words explicit lexeme later ih =>
      have joined := ih ends.tail
      rw [List.append_assoc]
      refine .word explicit (Kind.lexeme?_anew lexeme ⟨?_, ?_⟩) joined
      · intro notTerminal
        cases rest with
        | nil =>
            obtain rfl := later.words_eq_nil
            exact absurd (ends _ rfl) (Bool.eq_false_iff.mp notTerminal)
        | cons c rest => rfl
      · -- Where a closing line comes behind a comment, another comment does, and that is in front.
        intro _ within
        by_cases comment : ∃ word ∈ words, word.1 = .comment
        · exact later.closingLine comment
        · refine absurd within (not_closingLine_of_lexed joined ?_)
          intro word member
          rcases List.mem_append.mp member with inWords | inOthers
          · exact fun isComment => comment ⟨word, inWords, isComment⟩
          · exact noComment word inOthers

/-- A text is cut behind words that end with a newline or a comment, and each part is written as its
words. -/
theorem Lexed.split (lexed : Lexed text (words ++ others)) (ends : EndsLine words) :
    ∃ front back, text = front ++ back ∧ Lexed front words ∧ Lexed back others := by
  generalize whole : words ++ others = all at lexed
  induction lexed generalizing words with
  | finish =>
      obtain ⟨rfl, rfl⟩ := List.append_eq_nil_iff.mp whole
      exact ⟨[], [], rfl, .finish, .finish⟩
  | @blank c rest all isBlank later ih =>
      cases words with
      | nil =>
          obtain rfl : others = all := whole
          exact ⟨[], c :: rest, rfl, .finish, .blank isBlank later⟩
      | cons word words =>
          obtain ⟨front, back, rfl, lexedFront, lexedBack⟩ := ih ends whole
          exact ⟨c :: front, back, rfl, .blank isBlank lexedFront, lexedBack⟩
  | @word kind text rest all explicit lexeme later ih =>
      cases words with
      | nil =>
          obtain rfl : others = (kind, text) :: all := whole
          exact ⟨[], text ++ rest, rfl, .finish, .word explicit lexeme later⟩
      | cons word words =>
          obtain ⟨rfl, sameLater⟩ := List.cons.inj whole
          obtain ⟨front, back, rfl, lexedFront, lexedBack⟩ := ih ends.tail sameLater
          refine ⟨text ++ front, back, (List.append_assoc ..).symm, ?_, lexedBack⟩
          refine .word explicit (Kind.lexeme?_anew lexeme ⟨?_, ?_⟩) lexedFront
          · intro notTerminal
            cases front with
            | nil =>
                obtain rfl := lexedFront.words_eq_nil
                exact absurd (ends _ rfl) (Bool.eq_false_iff.mp notTerminal)
            | cons c front => rfl
          · exact fun _ within => within.trans (List.prefix_append ..).isInfix

theorem Lexed.behindGap {gap : List Char} (blank : IsGap gap) (lexed : Lexed text words) :
    Lexed (gap ++ text) words := by
  induction gap with
  | nil => exact lexed
  | cons c gap ih =>
      obtain ⟨here, later⟩ := List.forall_mem_cons.mp blank
      refine .blank ?_ (ih later)
      simpa [Kind.isBlank] using here

/-- A text without words is a gap. -/
theorem Lexed.isGap (lexed : Lexed text []) : IsGap text := by
  generalize none : ([] : List Word) = words at lexed
  induction lexed with
  | finish => exact nofun
  | blank isBlank later ih =>
      refine List.forall_mem_cons.mpr ⟨?_, ih none⟩
      simpa [Kind.isBlank] using isBlank
  | word => cases none

theorem lexed_of_cover {before : List Char} {tokens : List Token} {last : Word}
    (cover : Cover before text tokens) (same : tokens.map toWord = words ++ [last])
    (ends : last.1 = .eof) : Lexed text words := by
  induction cover generalizing words with
  | @finish before gap blank =>
      obtain rfl : words = [] := by simpa using congrArg List.length same
      simpa using Lexed.finish.behindGap blank
  | halt =>
      obtain rfl : words = [] := by simpa using congrArg List.length same
      rw [← (List.cons.inj same).1] at ends
      cases ends
  | @token before gap text rest kind tokens blank explicit nonempty lexeme later ih =>
      cases words with
      | nil =>
          rw [← (List.cons.inj same).1] at ends
          exact absurd ends explicit.2.1
      | cons word words =>
          obtain ⟨rfl, sameLater⟩ := List.cons.inj same
          rw [List.append_assoc, toWord, String.toList_ofList]
          exact (Lexed.word explicit.1 lexeme (ih sameLater)).behindGap blank

/-- A text is written as the words that its scan has before the end. -/
theorem lexed_iff : Lexed text words ↔
    (scan (String.ofList text)).map toWord = words ++ [(.eof, [])] := by
  constructor
  · intro lexed
    exact scan_lexed (by rwa [String.toList_ofList])
  · intro same
    have cover := cover_scan (String.ofList text)
    rw [String.toList_ofList] at cover
    exact lexed_of_cover cover same rfl

end Lexed

end Token
end GrammarBook
