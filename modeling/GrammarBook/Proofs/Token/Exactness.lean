import GrammarBook.Proofs.Token.Lexeme

namespace GrammarBook

/-!
# Tokens cut off whole

What is spelled as a token is the next token of a text that starts with it, if what follows does not
prolong it. Names and numbers must not be followed by what would continue them, and notes only by the
end of their line; for most kinds nothing has to be said. The first character tells the kind, but
for two pairs: comments begin as notes do, and the names of intrinsics as those of rules.
-/

namespace Kind

/-! ## The order of the kinds -/

/-- The kinds that come before a kind. -/
def earlier (order : List Kind) (kind : Kind) : List Kind := order.takeWhile (· != kind)

theorem earlier_cons_self (order : List Kind) (kind : Kind) : earlier (kind :: order) kind = [] :=
  List.takeWhile_cons_of_neg (by simp)

theorem earlier_cons_of_ne {order : List Kind} {kind head : Kind} (differs : head ≠ kind) :
    earlier (head :: order) kind = head :: earlier order kind :=
  List.takeWhile_cons_of_pos (bne_iff_ne.mpr differs)

/-- A token is found as the first kind that can be taken. -/
theorem firstLexeme?_eq_some_iff {order : List Kind} {text : List Char} {kind : Kind} {cut : Cut} :
    firstLexeme? order text = some (kind, cut) ↔
      kind ∈ order ∧ kind.take? text = some cut ∧
        ∀ other ∈ earlier order kind, other.take? text = none := by
  induction order with
  | nil => simp [firstLexeme?]
  | cons head tail ih =>
      rw [firstLexeme?, List.findSome?_cons]
      cases taken : head.take? text with
      | none =>
          have notHead : kind.take? text = some cut → kind ≠ head := by
            rintro found rfl
            rw [taken] at found
            cases found
          simp only [Option.map_none]
          rw [← firstLexeme?, ih]
          constructor
          · rintro ⟨member, found, none⟩
            refine ⟨List.mem_cons_of_mem _ member, found, ?_⟩
            rw [earlier_cons_of_ne (notHead found).symm]
            exact List.forall_mem_cons.mpr ⟨taken, none⟩
          · rintro ⟨member, found, none⟩
            rw [earlier_cons_of_ne (notHead found).symm] at none
            rcases List.mem_cons.mp member with isHead | later
            · exact absurd isHead (notHead found)
            · exact ⟨later, found, (List.forall_mem_cons.mp none).2⟩
      | some first =>
          simp only [Option.map_some, Option.some.injEq, Prod.mk.injEq]
          constructor
          · rintro ⟨rfl, rfl⟩
            refine ⟨List.mem_cons_self .., taken, ?_⟩
            rw [earlier_cons_self]
            exact fun _ member => absurd member List.not_mem_nil
          · rintro ⟨_, found, none⟩
            by_cases isHead : head = kind
            · subst isHead
              rw [taken] at found
              exact ⟨rfl, Option.some.inj found⟩
            · rw [earlier_cons_of_ne isHead] at none
              rw [(List.forall_mem_cons.mp none).1] at taken
              cases taken

/-! ## First characters -/

/-- One of the kinds that begin as the given one does: notes stand for comments too, and the names
of rules for those of the intrinsics. -/
def lead : Kind → Kind
  | comment => note
  | intrinsic => uppercase
  | kind => kind

/-- The kinds of token that begin with a character. -/
def leadOf (c : Char) : Kind :=
  if isCapital c then uppercase
  else if isSmall c then lowercase
  else if isNumeral c then number
  else
    match c with
    | '!' => note
    | '~' => excluded
    | '\'' => glyph
    | '"' => literal
    | '\n' | '\r' => newline
    | '?' | '*' | '+' => quantified
    | ' ' | '\t' => space
    | '.' | ':' | '|' | '(' | ')' | '[' | ']' | '\x7b' | '\x7d' | '-' => delimiter
    | _ => error

theorem leadOf_of_isSmall {c : Char} (small : isSmall c = true) : leadOf c = lowercase := by
  have notCapital : isCapital c = false := by
    rw [Bool.eq_false_iff]
    intro capital
    simp only [isSmall, isCapital, Bool.and_eq_true, decide_eq_true_eq] at small capital
    exact absurd (Char.le_trans small.1 capital.2) (by decide)
  simp [leadOf, notCapital, small]

theorem leadOf_of_isNumeral {c : Char} (numeral : isNumeral c = true) : leadOf c = number := by
  simp only [isNumeral, Bool.and_eq_true, decide_eq_true_eq] at numeral
  have notCapital : isCapital c = false := by
    rw [Bool.eq_false_iff]
    intro capital
    simp only [isCapital, Bool.and_eq_true, decide_eq_true_eq] at capital
    exact absurd (Char.le_trans capital.1 numeral.2) (by decide)
  have notSmall : isSmall c = false := by
    rw [Bool.eq_false_iff]
    intro small
    simp only [isSmall, Bool.and_eq_true, decide_eq_true_eq] at small
    exact absurd (Char.le_trans small.1 numeral.2) (by decide)
  simp [leadOf, notCapital, notSmall, isNumeral, numeral]

/-- Words of one lead are told by their first character. -/
theorem leadOf_of_contains {words : List (List Char)} {kind : Kind} {c : Char} {rest : List Char}
    (all : words.all (fun word => word.head?.all (leadOf · == kind)) = true)
    (member : words.contains (c :: rest) = true) : leadOf c = kind :=
  beq_iff_eq.mp (List.all_eq_true.mp all _ (List.contains_iff_mem.mp member))

/-- The first character tells the kind of a token, but for comments and intrinsics. -/
theorem leadOf_of_accepts {kind : Kind} {c : Char} {rest : List Char}
    (accepted : kind.acceptsChars (c :: rest) = true) : leadOf c = kind.lead := by
  unfold acceptsChars at accepted
  split at accepted
  · next same =>
    cases same
    rfl
  · next same =>
    cases same
    rfl
  · exact leadOf_of_contains (by decide) accepted
  · cases beq_iff_eq.mp accepted
    rfl
  · next same =>
    cases same
    rfl
  · exact leadOf_of_contains (by decide) accepted
  · next same =>
    cases same
    rfl
  · next same =>
    cases same
    rw [Bool.and_eq_true] at accepted
    exact leadOf_of_isSmall accepted.1
  · rw [Bool.or_eq_true, beq_iff_eq, beq_iff_eq] at accepted
    rcases accepted with same | same
    · cases same
      rfl
    · cases same
      rfl
  · next same =>
    cases same
    rfl
  · rw [Bool.and_eq_true, List.all_cons, Bool.and_eq_true] at accepted
    exact leadOf_of_isNumeral accepted.2.1
  · rw [Bool.or_eq_true, Bool.or_eq_true, beq_iff_eq, beq_iff_eq, beq_iff_eq] at accepted
    rcases accepted with (same | same) | same
    · cases same
      rfl
    · cases same
      rfl
    · cases same
      rfl
  · rw [Bool.and_eq_true, List.all_cons, Bool.and_eq_true, isBlank, Bool.or_eq_true, beq_iff_eq,
      beq_iff_eq] at accepted
    rcases accepted.2.1 with rfl | rfl
    · rfl
    · rfl
  · next same =>
    cases same
    rw [Bool.and_eq_true] at accepted
    exact if_pos accepted.1
  · cases accepted

/-- An earlier kind that begins alike is that of comments or of intrinsics. -/
theorem earlier_lead {kind other : Kind} (before : other ∈ earlier scanOrder kind)
    (alike : other.lead = kind.lead) :
    other = comment ∧ kind = note ∨ other = intrinsic ∧ kind = uppercase := by
  revert other
  cases kind <;> decide

/-! ## Cutting a token off another text -/

/-- The text is a token of the kind, and no intrinsic if it is to be a name. -/
def IsSpelled (kind : Kind) (text : List Char) : Prop :=
  kind.acceptsChars text = true ∧ (kind = uppercase → text ∉ intrinsicTexts)

/-- A text of the kind is not prolonged by what follows, and a comment is not closed later. -/
def EndsBefore (kind : Kind) (text rest : List Char) : Prop :=
  match kind with
  | lowercase | uppercase | intrinsic => rest.head?.all (!continuesName ·) = true
  | number => rest.head?.all (!isNumeral ·) = true
  | note => rest.head?.all (!isVisible ·) = true
  | space => rest.head?.all (!isBlank ·) = true
  | comment => comment.munch? (text ++ rest) = some (text, rest)
  | _ => True

/-- A run ends where a character comes that it does not hold. -/
theorem cutWhile_append {holds : Char → Bool} {run rest : List Char}
    (all : run.all holds = true) (stop : rest.head?.all (!holds ·) = true) :
    cutWhile holds (run ++ rest) = (run, rest) := by
  induction run with
  | nil =>
      cases rest with
      | nil => rfl
      | cons c rest =>
          have refused : holds c = false := by simpa using stop
          simp [cutWhile, refused]
  | cons c run ih =>
      rw [List.all_cons, Bool.and_eq_true] at all
      rw [List.cons_append, cutWhile, if_pos all.1, ih all.2]
      rfl

theorem isWordChar_of_isNameTail {c : Char} {rest : List Char}
    (accepted : isNameTail (c :: rest) = true) (notUnderscore : c ≠ '_') :
    isWordChar c = true ∧ isNameTail rest = true := by
  rw [isNameTail, if_neg notUnderscore, Bool.and_eq_true] at accepted
  exact accepted

/-- A name ends where no character comes that could continue it. -/
theorem cutNameTail_append {tail rest : List Char} (accepted : isNameTail tail = true)
    (stop : rest.head?.all (!continuesName ·) = true) :
    cutNameTail (tail ++ rest) = (tail, rest) := by
  induction tail with
  | nil =>
      cases rest with
      | nil => rfl
      | cons c rest =>
          have refused : continuesName c = false := by simpa using stop
          rw [continuesName, Bool.or_eq_false_iff, beq_eq_false_iff_ne] at refused
          simp [cutNameTail, refused]
  | cons c tail ih =>
      by_cases underscore : c = '_'
      · rw [isNameTail, if_pos underscore, List.isEmpty_iff] at accepted
        rw [accepted, underscore]
        rfl
      · obtain ⟨word, more⟩ := isWordChar_of_isNameTail accepted underscore
        rw [List.cons_append, cutNameTail, if_neg underscore, if_pos word, ih more]
        rfl

/-- A word is cut off whole where none of the words starts as another one. -/
theorem cutWord_exact {words : List (List Char)} {word : List Char}
    (prefixFree : ∀ one ∈ words, ∀ other ∈ words, one <+: other → one = other)
    (member : word ∈ words) (rest : List Char) : cutWord words (word ++ rest) = some (word, rest) := by
  obtain ⟨cut, found⟩ := cutWord_append member rest
  obtain ⟨splits, member'⟩ := cutWord_sound found
  have sameWord : cut.1 = word := by
    have cutPrefix : cut.1 <+: word ++ rest := ⟨cut.2, splits⟩
    rcases List.prefix_or_prefix_of_prefix cutPrefix (List.prefix_append word rest) with fits | fits
    · exact prefixFree _ member' _ member fits
    · exact (prefixFree _ member _ member' fits).symm
  have sameRest : cut.2 = rest := by
    rw [Cut.Splits, sameWord] at splits
    exact List.append_cancel_left splits
  rw [found, ← sameWord, ← sameRest]

/-- What is spelled as a token is cut off, no less and no more, where it is not prolonged. -/
theorem munch?_exact {kind : Kind} {text rest : List Char} (accepted : kind.acceptsChars text = true)
    (ends : kind.EndsBefore text rest) : kind.munch? (text ++ rest) = some (text, rest) := by
  by_cases isComment : kind = comment
  · subst isComment
    exact ends
  unfold acceptsChars at accepted
  split at accepted
  · exact absurd rfl isComment
  · exact absurd rfl isComment
  · exact cutWord_exact (by decide) (List.contains_iff_mem.mp accepted) rest
  · rw [beq_iff_eq] at accepted
    subst accepted
    rfl
  · exact if_pos accepted
  · exact cutWord_exact (by decide) (List.contains_iff_mem.mp accepted) rest
  · next body =>
    rw [Bool.and_eq_true, bne_iff_ne] at accepted
    have notEmpty : (body ++ rest).head? ≠ some '"' := by
      intro quoted
      exact accepted.2 (eq_quote_of_isLiteralBody accepted.1 quoted)
    rw [List.cons_append, munch?, if_neg notEmpty, cutLiteralBody_append accepted.1]
    rfl
  · next c tail =>
    rw [Bool.and_eq_true] at accepted
    rw [List.cons_append, munch?, if_pos accepted.1, cutNameTail_append accepted.2 ends]
    rfl
  · rw [Bool.or_eq_true, beq_iff_eq, beq_iff_eq] at accepted
    rcases accepted with rfl | rfl
    · rfl
    · rfl
  · next run =>
    rw [List.cons_append, List.cons_append, munch?, cutWhile_append accepted ends]
    rfl
  · rw [Bool.and_eq_true] at accepted
    rw [munch?, cutWhile_append accepted.2 ends, Cut.nonempty?, if_neg (by simpa using accepted.1)]
  · rw [Bool.or_eq_true, Bool.or_eq_true, beq_iff_eq, beq_iff_eq, beq_iff_eq] at accepted
    rcases accepted with (rfl | rfl) | rfl
    · rfl
    · rfl
    · rfl
  · rw [Bool.and_eq_true] at accepted
    rw [munch?, cutWhile_append accepted.2 ends, Cut.nonempty?, if_neg (by simpa using accepted.1)]
  · next c tail =>
    rw [Bool.and_eq_true] at accepted
    rw [List.cons_append, munch?, if_pos accepted.1, cutNameTail_append accepted.2 ends]
    rfl
  · cases accepted

theorem take?_exact {kind : Kind} {text rest : List Char} (accepted : kind.acceptsChars text = true)
    (ends : kind.EndsBefore text rest) : kind.take? (text ++ rest) = some (text, rest) := by
  rw [take?, munch?_exact accepted ends, Option.filter_some]
  apply if_pos
  rw [mayStand, Bool.or_eq_true, bne_iff_ne]
  by_cases isIntrinsic : kind = intrinsic
  · subst isIntrinsic
    have stop : rest.head?.all (!continuesName ·) = true := ends
    right
    cases rest with
    | nil => rfl
    | cons c rest => simpa using stop
  · exact Or.inl isIntrinsic

/-! ## The next token of another text -/

/-- The characters behind the first one of a name could all continue it. -/
theorem continuesName_of_isNameTail {tail : List Char} (accepted : isNameTail tail = true) :
    ∀ c ∈ tail, continuesName c = true := by
  induction tail with
  | nil => exact fun c member => absurd member List.not_mem_nil
  | cons head tail ih =>
      intro c member
      by_cases underscore : head = '_'
      · rw [isNameTail, if_pos underscore, List.isEmpty_iff] at accepted
        rw [accepted, underscore] at member
        rw [List.mem_singleton.mp member]
        rfl
      · obtain ⟨word, more⟩ := isWordChar_of_isNameTail accepted underscore
        rcases List.mem_cons.mp member with rfl | later
        · rw [continuesName, word]
          rfl
        · exact ih more c later

/-- The characters of a name of a rule could all continue a name. -/
theorem continuesName_of_mem {text : List Char} (accepted : uppercase.acceptsChars text = true) :
    ∀ c ∈ text, continuesName c = true := by
  cases text with
  | nil => cases accepted
  | cons head tail =>
      obtain ⟨capital, more⟩ := Bool.and_eq_true_iff.mp accepted
      intro c member
      rcases List.mem_cons.mp member with rfl | later
      · rw [continuesName, isWordChar, capital]
        rfl
      · exact continuesName_of_isNameTail more c later

/-- Nothing but the name itself is taken for an intrinsic where a name of a rule stands. -/
theorem eq_of_take?_intrinsic {text rest : List Char} {cut : Cut}
    (accepted : uppercase.acceptsChars text = true)
    (ends : rest.head?.all (!continuesName ·) = true)
    (taken : intrinsic.take? (text ++ rest) = some cut) : text ∈ intrinsicTexts := by
  obtain ⟨found, stands⟩ := Option.filter_eq_some_iff.mp taken
  obtain ⟨splits, spelled⟩ := munch?_sound found
  have stop : cut.2.head?.any continuesName = false := by simpa [mayStand] using stands
  have member : cut.1 ∈ intrinsicTexts := List.contains_iff_mem.mp spelled
  rcases List.append_eq_append_iff.mp splits with ⟨more, longer, same⟩ | ⟨more, longer, same⟩
  · cases more with
    | nil =>
        rw [List.append_nil] at longer
        rwa [longer]
    | cons c more =>
        have continues := continuesName_of_mem accepted c (by rw [longer]; simp)
        rw [same, List.cons_append, List.head?_cons, Option.any_some, continues] at stop
        cases stop
  · cases more with
    | nil =>
        rw [List.append_nil] at longer
        rwa [← longer]
    | cons c more =>
        have continues := continuesName_of_mem (uppercase_of_intrinsic spelled) c
          (by rw [longer]; simp)
        rw [same, List.cons_append, List.head?_cons, Option.all_some, continues] at ends
        cases ends

/-- A comment does not begin where a note does. -/
theorem take?_comment_of_note {text rest : List Char} (accepted : note.acceptsChars text = true) :
    comment.take? (text ++ rest) = Option.none := by
  unfold acceptsChars at accepted
  split at accepted
  case h_10 => rfl
  all_goals contradiction

/-- A token that is not prolonged is the next token of the text that starts with it. -/
theorem lexeme?_exact {kind : Kind} {text rest : List Char} (spelled : kind.IsSpelled text)
    (ends : kind.EndsBefore text rest) : lexeme? (text ++ rest) = some (kind, text, rest) := by
  obtain ⟨accepted, noIntrinsic⟩ := spelled
  refine firstLexeme?_eq_some_iff.mpr ⟨?_, take?_exact accepted ends, ?_⟩
  · rw [mem_scanOrder]
    constructor
    · rintro rfl
      cases accepted
    · rintro rfl
      cases accepted
  · intro other before
    cases taken : other.take? (text ++ rest) with
    | none => rfl
    | some cut =>
        exfalso
        obtain ⟨splits, accepted'⟩ := munch?_sound (Option.filter_eq_some_iff.mp taken).1
        obtain ⟨c, tail, rfl⟩ := List.exists_cons_of_ne_nil (ne_nil_of_acceptsChars accepted)
        obtain ⟨c', tail', same'⟩ := List.exists_cons_of_ne_nil (ne_nil_of_acceptsChars accepted')
        rw [same'] at accepted'
        rw [Cut.Splits, same', List.cons_append, List.cons_append] at splits
        obtain ⟨sameHead, sameTail⟩ := List.cons.inj splits
        subst sameHead
        have alike := (leadOf_of_accepts accepted').symm.trans (leadOf_of_accepts accepted)
        rcases earlier_lead before alike with ⟨rfl, rfl⟩ | ⟨rfl, rfl⟩
        · rw [take?_comment_of_note accepted] at taken
          cases taken
        · exact noIntrinsic rfl (eq_of_take?_intrinsic accepted ends taken)

end Kind
end GrammarBook
