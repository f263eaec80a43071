import GrammarBook.Proofs.Token.Exactness
import GrammarBook.Token.Scan

namespace GrammarBook

/-!
# Texts written token by token

A token that was cut off one source is cut off another one just so, if what follows there does not
prolong it. Comments are the hard case: where a comment ends depends on whether a closing line comes
behind it, however far away.

`Lexed` says of a text that it was written word by word with blanks in between. The scan of such a
text has these very words, and if none of them is a comment, it has no closing line.
-/

namespace Kind

/-! ## Comments -/

theorem cutAtClosingLine_cons {c : Char} {rest : List Char} (notHere : ¬ closingLine <+: c :: rest) :
    cutAtClosingLine (c :: rest) = (cutAtClosingLine rest).map (Cut.prepend [c]) := by
  rw [cutAtClosingLine]
  rintro more rfl rfl
  exact notHere ⟨more, rfl⟩

/-- The first closing line stays the first one, whatever follows it. -/
theorem cutAtClosingLine_anew {body rest : List Char}
    (found : cutAtClosingLine (body ++ rest) = some (body, rest)) (rest' : List Char) :
    cutAtClosingLine (body ++ rest') = some (body, rest') := by
  induction body with
  | nil => exact absurd (List.suffix_nil.mp (cutAtClosingLine_sound found).2) (by decide)
  | cons c body ih =>
      rw [List.cons_append] at found ⊢
      by_cases here : closingLine <+: c :: (body ++ rest)
      · obtain ⟨more, same⟩ := here
        rw [← same] at found
        cases Option.some.inj found
        rfl
      · rw [cutAtClosingLine_cons here] at found
        obtain ⟨⟨front, back⟩, foundInner, same⟩ := Option.map_eq_some_iff.mp found
        simp only [Cut.prepend, List.singleton_append, Prod.mk.injEq, List.cons.injEq,
          true_and] at same
        obtain ⟨rfl, rfl⟩ := same
        have notHere : ¬ closingLine <+: c :: (front ++ rest') := by
          intro here'
          have long := (cutAtClosingLine_sound foundInner).2.length_le
          have fits : closingLine <+: c :: front :=
            List.prefix_of_prefix_length_le here' (List.prefix_append (c :: front) rest')
              (Nat.le_succ_of_le long)
          exact here (fits.trans (List.prefix_append (c :: front) back))
        rw [cutAtClosingLine_cons notHere, ih foundInner]
        rfl

/-- A comment ends where it did, if no closing line has come to stand behind it. -/
theorem cutCommentBody_anew {body rest rest' : List Char}
    (found : cutCommentBody (body ++ rest) = some (body, rest))
    (closed : closingLine <:+: rest' → closingLine <:+: rest) :
    cutCommentBody (body ++ rest') = some (body, rest') := by
  unfold cutCommentBody at found
  split at found
  · next cut atLine =>
    cases found
    unfold cutCommentBody
    rw [cutAtClosingLine_anew atLine rest']
  · next noLine =>
    split at found
    · next more same =>
      cases found
      have noLine' : cutAtClosingLine ('<' :: '!' :: rest') = Option.none := by
        rw [cutAtClosingLine_eq_none_iff] at noLine ⊢
        intro later
        apply noLine
        rw [List.infix_cons_iff, List.infix_cons_iff] at later
        rcases later with ⟨more, here⟩ | ⟨more, here⟩ | later
        · cases here
        · cases here
        · exact (closed later).trans (List.suffix_append ..).isInfix
      change cutCommentBody ('<' :: '!' :: rest') = some (['<', '!'], rest')
      rw [cutCommentBody, noLine']
    · cases found

/-- A comment is an opening line and what closes it. -/
theorem exists_of_accepts_comment {text : List Char} (accepted : comment.acceptsChars text = true) :
    ∃ body, closesComment body = true ∧
      (text = '!' :: '>' :: '\n' :: body ∨ text = '!' :: '>' :: '\r' :: '\n' :: body) := by
  unfold acceptsChars at accepted
  split at accepted
  case h_1 body _ => exact ⟨body, accepted, Or.inl rfl⟩
  case h_2 body _ => exact ⟨body, accepted, Or.inr rfl⟩
  all_goals contradiction

/-- The same of the whole comment. -/
theorem endsBefore_comment {text rest rest' : List Char}
    (found : comment.munch? (text ++ rest) = some (text, rest))
    (closed : closingLine <:+: rest' → closingLine <:+: rest) :
    comment.EndsBefore text rest' := by
  obtain ⟨body, _, rfl | rfl⟩ := exists_of_accepts_comment (munch?_sound found).2
  · obtain ⟨inner, foundInner, same⟩ := Option.map_eq_some_iff.mp found
    cases same
    exact congrArg (Option.map (Cut.prepend ['!', '>', '\n']))
      (cutCommentBody_anew foundInner closed)
  · obtain ⟨inner, foundInner, same⟩ := Option.map_eq_some_iff.mp found
    cases same
    exact congrArg (Option.map (Cut.prepend ['!', '>', '\r', '\n']))
      (cutCommentBody_anew foundInner closed)

/-- Every comment has a closing line, also the empty one, whose opening line ends before it. -/
theorem closingLine_infix_comment {text : List Char} (accepted : comment.acceptsChars text = true) :
    closingLine <:+: text := by
  obtain ⟨body, closes, isText⟩ := exists_of_accepts_comment accepted
  rw [closesComment, Bool.or_eq_true, beq_iff_eq, List.isSuffixOf_iff_suffix] at closes
  rcases closes with rfl | atEnd
  · rcases isText with rfl | rfl
    · exact ⟨['!', '>'], [], rfl⟩
    · exact ⟨['!', '>', '\r'], [], rfl⟩
  · rcases isText with rfl | rfl
    · exact (atEnd.trans (List.suffix_append ['!', '>', '\n'] body)).isInfix
    · exact (atEnd.trans (List.suffix_append ['!', '>', '\r', '\n'] body)).isInfix

/-! ## What a source tells of its tokens -/

/-- Characters of a word are taken into a name, whatever follows. -/
theorem cutNameTail_wordChars {word rest : List Char} (all : ∀ c ∈ word, isWordChar c = true) :
    cutNameTail (word ++ rest) = (cutNameTail rest).prepend word := by
  induction word with
  | nil => rfl
  | cons c word ih =>
      obtain ⟨wordChar, more⟩ := List.forall_mem_cons.mp all
      have notUnderscore : c ≠ '_' := by
        rintro rfl
        cases wordChar
      rw [List.cons_append, cutNameTail, if_neg notUnderscore, if_pos wordChar, ih more]
      rfl

/-- Where nothing is taken into a name, nothing could continue it. -/
theorem stop_of_cutNameTail {rest : List Char} (whole : (cutNameTail rest).2 = rest) :
    rest.head?.any continuesName = false := by
  have none : (cutNameTail rest).1 = [] := by
    have splits := cutNameTail_splits rest
    rw [Cut.Splits, whole] at splits
    exact List.append_left_eq_self.mp splits
  cases rest with
  | nil => rfl
  | cons c rest =>
      rw [cutNameTail] at none
      by_cases underscore : c = '_'
      · rw [if_pos underscore] at none
        cases none
      · rw [if_neg underscore] at none
        by_cases word : isWordChar c = true
        · rw [if_pos word] at none
          cases none
        · simp [continuesName, underscore, word]

/-- An intrinsic's name is cut off whole as the name of a rule only where it may stand itself. -/
theorem stop_of_munch?_uppercase {text rest : List Char} (member : text ∈ intrinsicTexts)
    (found : uppercase.munch? (text ++ rest) = some (text, rest)) :
    rest.head?.any continuesName = false := by
  have words : intrinsicTexts.all (·.all isWordChar) = true := by decide
  have wordChars := List.all_eq_true.mp (List.all_eq_true.mp words text member)
  cases text with
  | nil => cases List.contains_iff_mem.mpr member
  | cons c tail =>
      rw [List.cons_append, munch?] at found
      split at found
      · rw [cutNameTail_wordChars (List.forall_mem_cons.mp wordChars).2] at found
        exact stop_of_cutNameTail (congrArg Prod.snd (Option.some.inj found))
      · cases found

/-- What a source has as a token is spelled as one. -/
theorem isSpelled_of_lexeme? {kind : Kind} {text rest : List Char}
    (found : lexeme? (text ++ rest) = some (kind, text, rest)) : kind.IsSpelled text := by
  obtain ⟨_, accepted, taken⟩ := lexeme?_sound found
  refine ⟨accepted, ?_⟩
  rintro rfl member
  have notTaken := (firstLexeme?_eq_some_iff.mp found).2.2 intrinsic (by decide)
  have cutOff : intrinsic.munch? (text ++ rest) = some (text, rest) :=
    cutWord_exact (by decide) member rest
  have stop := stop_of_munch?_uppercase member (Option.filter_eq_some_iff.mp taken).1
  rw [take?, cutOff, Option.filter_some, if_pos] at notTaken
  · cases notTaken
  · simp [mayStand, stop]

/-! ## Newlines -/

theorem isVisible_of_isLiteralBody {body : List Char} (accepted : isLiteralBody body = true) :
    ∀ c ∈ body, isVisible c = true := by
  fun_induction isLiteralBody body with
  | case1 => cases accepted
  | case2 c rest ih =>
      rw [Bool.and_eq_true] at accepted
      exact List.forall_mem_cons.mpr ⟨by decide,
        List.forall_mem_cons.mpr ⟨accepted.1, ih accepted.2⟩⟩
  | case3 rest _ =>
      rw [List.isEmpty_iff.mp accepted]
      exact List.forall_mem_singleton.mpr (by decide)
  | case4 c rest _ notQuote ih =>
      rw [Bool.and_eq_true, Bool.and_eq_true] at accepted
      exact List.forall_mem_cons.mpr ⟨accepted.1.1, ih accepted.2⟩

theorem newline_not_mem_of_forall {holds : Char → Bool} {run : List Char}
    (all : ∀ c ∈ run, holds c = true) (refuses : holds '\n' = false) : '\n' ∉ run := by
  intro member
  rw [all _ member] at refuses
  cases refuses

/-- No newline stands in a name. -/
theorem newline_not_mem_name {isFirst : Char → Bool} {c : Char} {tail : List Char}
    (accepted : (isFirst c && isNameTail tail) = true) (refuses : isFirst '\n' = false) :
    '\n' ∉ c :: tail := by
  obtain ⟨first, named⟩ := Bool.and_eq_true_iff.mp accepted
  have notHere : '\n' ≠ c := by
    rintro rfl
    rw [first] at refuses
    cases refuses
  have inTail := newline_not_mem_of_forall (continuesName_of_isNameTail named) (by decide)
  exact List.not_mem_cons_of_ne_of_not_mem notHere inTail

/-- No newline stands in a token that is neither a comment nor a newline. -/
theorem newline_not_mem {kind : Kind} {text : List Char} (accepted : kind.acceptsChars text = true)
    (notComment : kind ≠ comment) (notNewline : kind ≠ newline) : '\n' ∉ text := by
  unfold acceptsChars at accepted
  split at accepted
  · contradiction
  · contradiction
  · have all : ∀ word ∈ delimiterTexts, '\n' ∉ word := by decide
    exact all _ (List.contains_iff_mem.mp accepted)
  · rw [beq_iff_eq.mp accepted]
    decide
  · next c =>
    have notHere : '\n' ≠ c := by
      rintro rfl
      cases accepted
    simp [notHere]
  · have all : ∀ word ∈ intrinsicTexts, '\n' ∉ word := by decide
    exact all _ (List.contains_iff_mem.mp accepted)
  · next body =>
    rw [Bool.and_eq_true] at accepted
    have inBody := newline_not_mem_of_forall (isVisible_of_isLiteralBody accepted.1) (by decide)
    simp [inBody]
  · exact newline_not_mem_name accepted (by decide)
  · contradiction
  · have inRest := newline_not_mem_of_forall (List.all_eq_true.mp accepted) (by decide)
    simp [inRest]
  · rw [Bool.and_eq_true] at accepted
    exact newline_not_mem_of_forall (List.all_eq_true.mp accepted.2) (by decide)
  · rw [Bool.or_eq_true, Bool.or_eq_true, beq_iff_eq, beq_iff_eq, beq_iff_eq] at accepted
    rcases accepted with (rfl | rfl) | rfl
    · decide
    · decide
    · decide
  · rw [Bool.and_eq_true] at accepted
    exact newline_not_mem_of_forall (List.all_eq_true.mp accepted.2) (by decide)
  · exact newline_not_mem_name accepted (by decide)
  · cases accepted

/-- A closing line does not begin where no newline stands. -/
theorem closingLine_infix_append {front rest : List Char} (noNewline : '\n' ∉ front)
    (within : closingLine <:+: front ++ rest) : closingLine <:+: rest := by
  induction front with
  | nil => exact within
  | cons c front ih =>
      rw [List.mem_cons, not_or] at noNewline
      rw [List.cons_append, List.infix_cons_iff] at within
      rcases within with ⟨more, here⟩ | later
      · exact absurd (List.cons.inj here).1 noNewline.1
      · exact ih noNewline.2 later

end Kind

namespace Token

/-! ## Texts and their words -/

/-- A token without its place. -/
abbrev Word := Kind × List Char

/-- What a token is, wherever it stands. -/
def toWord (token : Token) : Word := (token.kind, token.text.toList)

/-- The text is written as the words, with blanks before them. -/
inductive Lexed : List Char → List Word → Prop
  | finish : Lexed [] []
  | blank {c : Char} {rest : List Char} {words : List Word} (isBlank : Kind.isBlank c = true)
      (later : Lexed rest words) : Lexed (c :: rest) words
  | word {kind : Kind} {text rest : List Char} {words : List Word} (explicit : kind ≠ .space)
      (lexeme : Kind.lexeme? (text ++ rest) = some (kind, text, rest)) (later : Lexed rest words) :
      Lexed (text ++ rest) ((kind, text) :: words)

/-- A word begins where no blank stands. -/
theorem not_isBlank_of_lexeme? {kind : Kind} {c : Char} {text rest : List Char}
    (explicit : kind ≠ .space) (lexeme : Kind.lexeme? (c :: text ++ rest) = some (kind, c :: text, rest)) :
    Kind.isBlank c = false := by
  rw [Bool.eq_false_iff]
  intro blank
  have lead := Kind.leadOf_of_accepts (Kind.lexeme?_sound lexeme).2.1
  rw [Kind.isBlank, Bool.or_eq_true, beq_iff_eq, beq_iff_eq] at blank
  rcases blank with rfl | rfl
  · cases kind <;> first | exact explicit rfl | cases lead
  · cases kind <;> first | exact explicit rfl | cases lead

/-- Blanks in front of the words make no difference. -/
theorem Lexed.dropBlanks {text : List Char} {words : List Word} (lexed : Lexed text words) :
    Lexed (text.dropWhile Kind.isBlank) words := by
  induction lexed with
  | finish => exact .finish
  | blank isBlank later ih =>
      rw [List.dropWhile_cons_of_pos isBlank]
      exact ih
  | @word kind text rest words explicit lexeme later ih =>
      cases text with
      | nil =>
          exact absurd rfl (Kind.ne_nil_of_acceptsChars (Kind.lexeme?_sound lexeme).2.1)
      | cons c text =>
          have notBlank := not_isBlank_of_lexeme? explicit lexeme
          rw [List.cons_append, List.dropWhile_cons_of_neg (by simp [notBlank])]
          exact .word explicit lexeme later

/-- The blanks in front of a text are cut off together. -/
theorem lexeme?_blanks {c : Char} {rest : List Char} (blank : Kind.isBlank c = true) :
    Kind.lexeme? (c :: rest) =
      some (.space, (c :: rest).takeWhile Kind.isBlank, (c :: rest).dropWhile Kind.isBlank) := by
  have spelled : Kind.space.IsSpelled ((c :: rest).takeWhile Kind.isBlank) := by
    refine ⟨Bool.and_eq_true_iff.mpr ⟨?_, List.all_takeWhile⟩, nofun⟩
    rw [List.takeWhile_cons_of_pos blank]
    rfl
  have ends : Kind.space.EndsBefore ((c :: rest).takeWhile Kind.isBlank)
      ((c :: rest).dropWhile Kind.isBlank) := Kind.stop_dropWhile Kind.isBlank (c :: rest)
  have exact_ := Kind.lexeme?_exact spelled ends
  rwa [List.takeWhile_append_dropWhile] at exact_

theorem Lexed.words_eq_nil {words : List Word} (lexed : Lexed [] words) : words = [] := by
  generalize empty : ([] : List Char) = text at lexed
  cases lexed with
  | finish => rfl
  | blank => cases empty
  | word explicit lexeme later =>
      have nonempty := Kind.ne_nil_of_acceptsChars (Kind.lexeme?_sound lexeme).2.1
      exact absurd (List.append_eq_nil_iff.mp empty.symm).1 nonempty

/-- A scan finds just the words that a text is written as. -/
theorem scanFrom_lexed {text : List Char} {words : List Word} (lexed : Lexed text words)
    (bound : Nat) (enough : text.length ≤ bound) (place : Location) :
    (scanFrom bound place text).map toWord = words ++ [(.eof, [])] := by
  induction bound generalizing text words place with
  | zero =>
      have empty := List.eq_nil_of_length_eq_zero (Nat.le_zero.mp enough)
      subst empty
      rw [lexed.words_eq_nil]
      rfl
  | succ bound ih =>
      cases lexed with
      | finish => rfl
      | @blank c rest words isBlank later =>
          rw [scanFrom, lexeme?_blanks isBlank]
          have shorter : ((c :: rest).dropWhile Kind.isBlank).length ≤ bound := by
            rw [List.dropWhile_cons_of_pos isBlank]
            have fits := (List.dropWhile_suffix (l := rest) Kind.isBlank).length_le
            rw [List.length_cons] at enough
            omega
          exact ih (Lexed.blank isBlank later).dropBlanks shorter _
      | @word kind front rest words explicit lexeme later =>
          have accepted := (Kind.lexeme?_sound lexeme).2.1
          obtain ⟨c, tail, rfl⟩ := List.exists_cons_of_ne_nil (Kind.ne_nil_of_acceptsChars accepted)
          have shorter : rest.length ≤ bound := by
            simp only [List.cons_append, List.length_cons, List.length_append] at enough
            omega
          have notImplicit : kind.isImplicit = false := by
            simpa [Kind.isImplicit] using explicit
          rw [List.cons_append] at lexeme ⊢
          rw [scanFrom, lexeme]
          simp only [notImplicit, Bool.false_eq_true, if_false, List.map_cons, List.cons_append]
          rw [ih later shorter]
          simp [toWord]

theorem scan_lexed {source : String} {words : List Word} (lexed : Lexed source.toList words) :
    (scan source).map toWord = words ++ [(.eof, [])] :=
  scanFrom_lexed lexed _ (Nat.le_refl _) _

/-- No word begins like a closing mark. -/
theorem not_lexed_closing {rest : List Char} {words : List Word} : ¬ Lexed ('<' :: rest) words := by
  intro lexed
  generalize same : '<' :: rest = text at lexed
  cases lexed with
  | finish => cases same
  | blank isBlank later =>
      cases same
      cases isBlank
  | @word kind front back words explicit lexeme later =>
      have accepted := (Kind.lexeme?_sound lexeme).2.1
      obtain ⟨c, tail, rfl⟩ := List.exists_cons_of_ne_nil (Kind.ne_nil_of_acceptsChars accepted)
      cases (List.cons.inj same).1
      cases kind <;> cases accepted

/-- Without comments there is no closing line. -/
theorem not_closingLine_of_lexed {text : List Char} {words : List Word} (lexed : Lexed text words)
    (noComment : ∀ word ∈ words, word.1 ≠ .comment) : ¬ Kind.closingLine <:+: text := by
  induction lexed with
  | finish => decide
  | @blank c rest words isBlank later ih =>
      intro within
      have notNewline : '\n' ∉ [c] := by
        intro member
        rw [← List.mem_singleton.mp member] at isBlank
        cases isBlank
      exact ih noComment (Kind.closingLine_infix_append notNewline within)
  | @word kind front rest words explicit lexeme later ih =>
      obtain ⟨notComment, others⟩ := List.forall_mem_cons.mp noComment
      have accepted := (Kind.lexeme?_sound lexeme).2.1
      intro within
      by_cases isNewline : kind = .newline
      · subst isNewline
        have atNewline : Kind.closingLine <:+: '\n' :: rest := by
          rw [Kind.acceptsChars, Bool.or_eq_true, beq_iff_eq, beq_iff_eq] at accepted
          rcases accepted with rfl | rfl
          · exact within
          · exact Kind.closingLine_infix_append (by decide : '\n' ∉ ['\r']) within
        rcases List.infix_cons_iff.mp atNewline with ⟨more, here⟩ | infixRest
        · rw [← (List.cons.inj here).2] at later
          exact not_lexed_closing later
        · exact ih others infixRest
      · exact ih others
          (Kind.closingLine_infix_append (Kind.newline_not_mem accepted notComment isNewline) within)

end Token
end GrammarBook
