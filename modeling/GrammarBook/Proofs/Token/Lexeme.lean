import GrammarBook.Token.Munch

namespace GrammarBook
namespace Kind

/-!
# What a lexeme is

`munch?` cuts from the front and `acceptsChars` judges a whole text. The two readings of a kind are
tied together here. What is cut off is a token of its kind and nothing of the text is lost; and
where nothing is cut off, no front of the text is a token of the kind.

Maximality is not part of either statement. A comment may end before a longer comment would, and a
name is cut as long as it can be; both readings agree on what a token is, not on where it ends.
-/

/-! ## Parts of a cut -/

@[simp] theorem prepend_fst (front : List Char) (cut : Cut) :
    (cut.prepend front).1 = front ++ cut.1 := rfl

@[simp] theorem prepend_snd (front : List Char) (cut : Cut) : (cut.prepend front).2 = cut.2 := rfl

/-- A cut gives the text back. -/
def Cut.Splits (cut : Cut) (text : List Char) : Prop := cut.1 ++ cut.2 = text

theorem Cut.Splits.prepend {cut : Cut} {text : List Char} (splits : cut.Splits text)
    (front : List Char) : (cut.prepend front).Splits (front ++ text) := by
  rw [Cut.Splits, prepend_fst, prepend_snd, List.append_assoc]
  exact congrArg (front ++ ·) splits

/-! ## Runs of characters -/

theorem cutWhile_eq (holds : Char → Bool) (text : List Char) :
    cutWhile holds text = (text.takeWhile holds, text.dropWhile holds) := by
  induction text with
  | nil => rfl
  | cons c rest ih =>
      by_cases held : holds c = true
      · simp [cutWhile, held, ih, Cut.prepend]
      · simp [cutWhile, held]

/-- What stands behind a run does not go on with it. -/
theorem stop_dropWhile (holds : Char → Bool) (text : List Char) :
    (text.dropWhile holds).head?.all (!holds ·) = true := by
  have stop := List.head?_dropWhile_not holds text
  cases next : (text.dropWhile holds).head? with
  | none => rfl
  | some c =>
      rw [next] at stop
      simpa using stop

theorem all_not_of_any {holds : Char → Bool} {next : Option Char} (stop : next.any holds = false) :
    next.all (!holds ·) = true := by
  cases next with
  | none => rfl
  | some c => simpa using stop

theorem cutNameTail_splits (text : List Char) : (cutNameTail text).Splits text := by
  induction text with
  | nil => rfl
  | cons c rest ih =>
      rw [cutNameTail]
      split
      · next underscore => rw [underscore]; rfl
      · split
        · exact ih.prepend [c]
        · rfl

/-- Letters, digits and at most one underscore at the end. -/
theorem isNameTail_cutNameTail (text : List Char) : isNameTail (cutNameTail text).1 = true := by
  induction text with
  | nil => rfl
  | cons c rest ih =>
      rw [cutNameTail]
      split
      · rfl
      · next notUnderscore =>
        split
        · next word => simp [isNameTail, notUnderscore, word, ih]
        · rfl

/-! ## Literals -/

/-- A plain character of a literal, not a quote and not a backslash, goes before any body. -/
theorem isLiteralBody_cons {c : Char} (notQuote : c ≠ '"')
    (plain : (isVisible c && c != '\\') = true) (rest : List Char) :
    isLiteralBody (c :: rest) = isLiteralBody rest := by
  rw [Bool.and_eq_true, bne_iff_ne] at plain
  rw [isLiteralBody]
  · simp [notQuote, plain]
  · intro escaped more isEscape
    exact absurd isEscape plain.2

theorem cutLiteralBody_sound {text : List Char} {cut : Cut}
    (found : cutLiteralBody text = some cut) :
    cut.Splits text ∧ isLiteralBody cut.1 = true := by
  fun_induction cutLiteralBody text generalizing cut with
  | case1 => cases found
  | case2 c rest visible ih =>
      obtain ⟨inner, foundInner, rfl⟩ := Option.map_eq_some_iff.mp found
      exact ⟨(ih foundInner).1.prepend _, by simp [isLiteralBody, visible, (ih foundInner).2]⟩
  | case3 => cases found
  | case4 rest _ =>
      cases found
      exact ⟨rfl, rfl⟩
  | case5 c rest _ notQuote plain ih =>
      obtain ⟨inner, foundInner, rfl⟩ := Option.map_eq_some_iff.mp found
      refine ⟨(ih foundInner).1.prepend [c], ?_⟩
      exact (isLiteralBody_cons notQuote plain inner.1).trans (ih foundInner).2
  | case6 => cases found

theorem cutLiteralBody_cons {c : Char} (notQuote : c ≠ '"')
    (plain : (isVisible c && c != '\\') = true) (rest : List Char) :
    cutLiteralBody (c :: rest) = (cutLiteralBody rest).map (Cut.prepend [c]) := by
  have notEscape := plain
  rw [Bool.and_eq_true, bne_iff_ne] at notEscape
  rw [cutLiteralBody]
  · simp [notQuote, plain]
  · intro escaped more isEscape
    exact absurd isEscape notEscape.2

/-- A body is cut off exactly where its closing quote stands, whatever follows. -/
theorem cutLiteralBody_append {body : List Char} (accepted : isLiteralBody body = true)
    (back : List Char) : cutLiteralBody (body ++ back) = some (body, back) := by
  fun_induction isLiteralBody body with
  | case1 => cases accepted
  | case2 c rest ih =>
      rw [Bool.and_eq_true] at accepted
      simp [cutLiteralBody, accepted.1, ih accepted.2, Cut.prepend]
  | case3 rest _ =>
      rw [List.isEmpty_iff.mp accepted]
      rfl
  | case4 c rest _ notQuote ih =>
      rw [Bool.and_eq_true] at accepted
      rw [List.cons_append, cutLiteralBody_cons notQuote accepted.1, ih accepted.2]
      rfl

/-- Among bodies only the empty one starts with its closing quote. -/
theorem eq_quote_of_isLiteralBody {body back : List Char} (accepted : isLiteralBody body = true)
    (quoted : (body ++ back).head? = some '"') : body = ['"'] := by
  cases body with
  | nil => cases accepted
  | cons c rest =>
      have isQuote : c = '"' := Option.some.inj quoted
      subst isQuote
      have noMore : rest.isEmpty = true := accepted
      rw [List.isEmpty_iff.mp noMore]

/-! ## Comments -/

/-- What a comment ends with, unless it is empty: the closing mark at the start of a line. -/
def closingLine : List Char := ['\n', '<', '!']

theorem cutAtClosingLine_sound {text : List Char} {cut : Cut}
    (found : cutAtClosingLine text = some cut) : cut.Splits text ∧ closingLine <:+ cut.1 := by
  fun_induction cutAtClosingLine text generalizing cut with
  | case1 => cases found
  | case2 rest =>
      cases found
      exact ⟨rfl, List.suffix_refl _⟩
  | case3 c rest _ ih =>
      obtain ⟨inner, foundInner, rfl⟩ := Option.map_eq_some_iff.mp found
      exact ⟨(ih foundInner).1.prepend [c], (ih foundInner).2.trans (List.suffix_append _ _)⟩

/-- Where no line starts with the closing mark, there is none in the text. -/
theorem cutAtClosingLine_eq_none_iff {text : List Char} :
    cutAtClosingLine text = none ↔ ¬ closingLine <:+: text := by
  fun_induction cutAtClosingLine text with
  | case1 => simp [closingLine]
  | case2 rest =>
      have here : closingLine <:+: '\n' :: '<' :: '!' :: rest := ⟨[], rest, rfl⟩
      simp [here]
  | case3 c rest notHere ih =>
      rw [Option.map_eq_none_iff, ih, List.infix_cons_iff, not_or]
      refine ⟨fun later => ⟨?_, later⟩, And.right⟩
      rintro ⟨more, same⟩
      exact notHere more (by cases same; rfl) (by cases same; rfl)

theorem cutCommentBody_sound {text : List Char} {cut : Cut}
    (found : cutCommentBody text = some cut) :
    cut.Splits text ∧ closesComment cut.1 = true := by
  unfold cutCommentBody at found
  split at found
  · next atLine =>
    cases found
    obtain ⟨splits, suffix⟩ := cutAtClosingLine_sound atLine
    exact ⟨splits, Bool.or_eq_true_iff.mpr (Or.inr (List.isSuffixOf_iff_suffix.mpr suffix))⟩
  · split at found
    · cases found
      exact ⟨rfl, rfl⟩
    · cases found

/-- A text that closes a comment is long enough for the cut, which may come earlier. -/
theorem cutCommentBody_append {body : List Char} (closes : closesComment body = true)
    (back : List Char) : ∃ cut, cutCommentBody (body ++ back) = some cut := by
  unfold cutCommentBody
  split
  · next cut _ => exact ⟨cut, rfl⟩
  · next noLine =>
    rw [closesComment, Bool.or_eq_true, beq_iff_eq, List.isSuffixOf_iff_suffix] at closes
    rcases closes with empty | ⟨front, rfl⟩
    · subst empty
      exact ⟨_, rfl⟩
    · rw [cutAtClosingLine_eq_none_iff] at noLine
      exact absurd ⟨front, back, rfl⟩ noLine

/-! ## Words and runs -/

theorem cutWord_sound {words : List (List Char)} {text : List Char} {cut : Cut}
    (found : cutWord words text = some cut) : cut.Splits text ∧ cut.1 ∈ words := by
  obtain ⟨word, foundWord, rfl⟩ := Option.map_eq_some_iff.mp found
  refine ⟨?_, List.mem_of_find?_eq_some foundWord⟩
  have begins := List.find?_some foundWord
  obtain ⟨rest, rfl⟩ := List.isPrefixOf_iff_prefix.mp begins
  simp [Cut.Splits]

theorem cutWord_append {words : List (List Char)} {word : List Char} (member : word ∈ words)
    (back : List Char) : ∃ cut, cutWord words (word ++ back) = some cut := by
  rw [cutWord, ← Option.isSome_iff_exists, Option.isSome_map, List.find?_isSome]
  exact ⟨word, member, List.isPrefixOf_iff_prefix.mpr (List.prefix_append word back)⟩

theorem nonempty?_cutWhile_sound {holds : Char → Bool} {text : List Char} {cut : Cut}
    (found : (cutWhile holds text).nonempty? = some cut) :
    cut.Splits text ∧ cut.1 ≠ [] ∧ cut.1.all holds = true := by
  rw [cutWhile_eq, Cut.nonempty?] at found
  split at found
  · cases found
  · next nonempty =>
    cases found
    exact ⟨List.takeWhile_append_dropWhile, by simpa using nonempty, List.all_takeWhile⟩

theorem nonempty?_cutWhile_append {holds : Char → Bool} {run : List Char}
    (accepted : (!run.isEmpty && run.all holds) = true) (back : List Char) :
    ∃ cut, (cutWhile holds (run ++ back)).nonempty? = some cut := by
  cases run with
  | nil => cases accepted
  | cons c rest =>
      rw [Bool.and_eq_true, List.all_cons, Bool.and_eq_true] at accepted
      simp [cutWhile, Cut.nonempty?, accepted.2.1]

/-! ## The two readings of a kind -/

/-- A name is cut off with its first character. -/
theorem cutName_sound {isFirst : Char → Bool} {c : Char} {rest : List Char} {cut : Cut}
    (found : (if isFirst c then some ((cutNameTail rest).prepend [c]) else none) = some cut) :
    cut.Splits (c :: rest) ∧ ∃ tail, cut.1 = c :: tail ∧ (isFirst c && isNameTail tail) = true := by
  split at found
  · next first =>
    cases found
    exact ⟨(cutNameTail_splits rest).prepend [c], _, rfl,
      Bool.and_eq_true_iff.mpr ⟨first, isNameTail_cutNameTail rest⟩⟩
  · cases found

/-- A literal is cut off with its opening quote, and more than a quote stands behind that. -/
theorem cutLiteral_sound {body : List Char} {cut : Cut}
    (found : (if body.head? = some '"' then none else
      (cutLiteralBody body).map (Cut.prepend ['"'])) = some cut) :
    cut.Splits ('"' :: body) ∧ literal.acceptsChars cut.1 = true := by
  split at found
  · cases found
  · next notEmpty =>
    obtain ⟨inner, foundInner, rfl⟩ := Option.map_eq_some_iff.mp found
    obtain ⟨splits, accepted⟩ := cutLiteralBody_sound foundInner
    refine ⟨splits.prepend _, Bool.and_eq_true_iff.mpr ⟨accepted, ?_⟩⟩
    rw [bne_iff_ne]
    intro onlyQuote
    have sameInner : inner.1 = ['"'] := onlyQuote
    exact notEmpty (by rw [← splits, sameInner]; rfl)

/-- What is cut off is a token of its kind, and the text is not changed otherwise. -/
theorem munch?_sound {kind : Kind} {text : List Char} {cut : Cut}
    (found : kind.munch? text = some cut) :
    cut.Splits text ∧ kind.acceptsChars cut.1 = true := by
  unfold munch? at found
  split at found
  · obtain ⟨inner, foundInner, rfl⟩ := Option.map_eq_some_iff.mp found
    obtain ⟨splits, closes⟩ := cutCommentBody_sound foundInner
    exact ⟨splits.prepend _, closes⟩
  · obtain ⟨inner, foundInner, rfl⟩ := Option.map_eq_some_iff.mp found
    obtain ⟨splits, closes⟩ := cutCommentBody_sound foundInner
    exact ⟨splits.prepend _, closes⟩
  · obtain ⟨splits, member⟩ := cutWord_sound found
    exact ⟨splits, List.contains_iff_mem.mpr member⟩
  · cases found
    exact ⟨rfl, rfl⟩
  · split at found
    · next visible =>
      cases found
      exact ⟨rfl, visible⟩
    · cases found
  · obtain ⟨splits, member⟩ := cutWord_sound found
    exact ⟨splits, List.contains_iff_mem.mpr member⟩
  · exact cutLiteral_sound found
  · obtain ⟨splits, tail, same, named⟩ := cutName_sound found
    exact ⟨splits, by rw [same]; exact named⟩
  · cases found
    exact ⟨rfl, rfl⟩
  · cases found
    exact ⟨rfl, rfl⟩
  · next rest =>
    cases found
    rw [cutWhile_eq]
    exact ⟨congrArg (['!', ' '] ++ ·) List.takeWhile_append_dropWhile, List.all_takeWhile⟩
  · obtain ⟨splits, nonempty, all⟩ := nonempty?_cutWhile_sound found
    exact ⟨splits, by simp [acceptsChars, nonempty, all]⟩
  · next c rest =>
    split at found
    · next isMark =>
      cases found
      exact ⟨rfl, by simpa [acceptsChars, or_assoc] using isMark⟩
    · cases found
  · obtain ⟨splits, nonempty, all⟩ := nonempty?_cutWhile_sound found
    exact ⟨splits, by simp [acceptsChars, nonempty, all]⟩
  · obtain ⟨splits, tail, same, named⟩ := cutName_sound found
    exact ⟨splits, by rw [same]; exact named⟩
  · cases found

/-- Where a token of the kind is in front, something is cut off. -/
theorem munch?_append {kind : Kind} {front : List Char}
    (accepted : kind.acceptsChars front = true) (back : List Char) :
    ∃ cut, kind.munch? (front ++ back) = some cut := by
  unfold acceptsChars at accepted
  split at accepted
  · next body =>
    obtain ⟨cut, found⟩ := cutCommentBody_append accepted back
    exact ⟨_, congrArg (Option.map (Cut.prepend _)) found⟩
  · next body =>
    obtain ⟨cut, found⟩ := cutCommentBody_append accepted back
    exact ⟨_, congrArg (Option.map (Cut.prepend _)) found⟩
  · exact cutWord_append (List.contains_iff_mem.mp accepted) back
  · rw [beq_iff_eq] at accepted
    subst accepted
    exact ⟨_, rfl⟩
  · next c =>
    exact ⟨_, if_pos accepted⟩
  · exact cutWord_append (List.contains_iff_mem.mp accepted) back
  · next body =>
    rw [Bool.and_eq_true, bne_iff_ne] at accepted
    have notEmpty : (body ++ back).head? ≠ some '"' := by
      intro quoted
      exact accepted.2 (eq_quote_of_isLiteralBody accepted.1 quoted)
    rw [List.cons_append, munch?, if_neg notEmpty, cutLiteralBody_append accepted.1]
    exact ⟨_, rfl⟩
  · next c rest =>
    rw [Bool.and_eq_true] at accepted
    exact ⟨_, if_pos accepted.1⟩
  · rw [Bool.or_eq_true, beq_iff_eq, beq_iff_eq] at accepted
    rcases accepted with rfl | rfl
    · exact ⟨_, rfl⟩
    · exact ⟨_, rfl⟩
  · exact ⟨_, rfl⟩
  · exact nonempty?_cutWhile_append accepted back
  · rw [Bool.or_eq_true, Bool.or_eq_true, beq_iff_eq, beq_iff_eq, beq_iff_eq] at accepted
    rcases accepted with (rfl | rfl) | rfl
    · exact ⟨_, rfl⟩
    · exact ⟨_, rfl⟩
    · exact ⟨_, rfl⟩
  · exact nonempty?_cutWhile_append accepted back
  · next c rest =>
    rw [Bool.and_eq_true] at accepted
    exact ⟨_, if_pos accepted.1⟩
  · cases accepted

/-! ## The next token -/

/-- A token that may be taken is found in the order of the kinds, itself or an earlier one. -/
theorem lexeme?_of_take? {kind : Kind} {text : List Char} {cut : Cut}
    (taken : kind.take? text = some cut) : ∃ lexeme, lexeme? text = some lexeme := by
  rw [lexeme?, firstLexeme?, ← Option.isSome_iff_exists, List.findSome?_isSome_iff]
  refine ⟨kind, mem_scanOrder.mpr ?_, by rw [taken]; rfl⟩
  constructor
  · rintro rfl
    cases taken
  · rintro rfl
    cases taken

/-- The next token is a token of its kind, and the text goes on behind it. -/
theorem lexeme?_sound {kind : Kind} {text front back : List Char}
    (found : lexeme? text = some (kind, front, back)) :
    front ++ back = text ∧ kind.acceptsChars front = true ∧ kind.take? text = some (front, back) := by
  obtain ⟨candidate, _, hit⟩ := List.exists_of_findSome?_eq_some found
  obtain ⟨cut, taken, same⟩ := Option.map_eq_some_iff.mp hit
  cases same
  obtain ⟨splits, accepted⟩ := munch?_sound (Option.filter_eq_some_iff.mp taken).1
  exact ⟨splits, accepted, taken⟩

theorem munch?_of_lexeme? {kind : Kind} {text front back : List Char}
    (found : lexeme? text = some (kind, front, back)) : kind.munch? text = some (front, back) :=
  (Option.filter_eq_some_iff.mp (lexeme?_sound found).2.2).1

/-- No front of the text is a token of any kind. -/
def NoTokenBegins (text : List Char) : Prop :=
  ∀ (kind : Kind) (front back : List Char), text = front ++ back → kind.acceptsChars front = false

theorem mem_intrinsicTexts_iff {text : String} :
    text.toList ∈ intrinsicTexts ↔ text ∈ intrinsicNames := by
  rw [intrinsicTexts, List.mem_map]
  exact ⟨fun ⟨name, member, same⟩ => String.toList_inj.mp same ▸ member,
    fun member => ⟨text, member, rfl⟩⟩

/-- The names of the intrinsics are names of rules as well. -/
theorem uppercase_of_intrinsic {text : List Char} (accepted : intrinsic.acceptsChars text = true) :
    uppercase.acceptsChars text = true := by
  have member : text ∈ intrinsicTexts := List.contains_iff_mem.mp accepted
  have all : ∀ word ∈ intrinsicTexts, uppercase.acceptsChars word = true := by decide
  exact all text member

/-- The search fails only where no token begins. An intrinsic that may not stand where it is found
is no exception, since its name then begins the name of a rule. -/
theorem lexeme?_eq_none_iff {text : List Char} : lexeme? text = none ↔ NoTokenBegins text := by
  constructor
  · intro nothing
    have notTaken : ∀ kind : Kind, kind.take? text = none := by
      intro kind
      cases taken : kind.take? text with
      | none => rfl
      | some cut =>
          obtain ⟨lexeme, found⟩ := lexeme?_of_take? taken
          exact absurd (nothing.symm.trans found) (by simp)
    have ordinary : ∀ (kind : Kind) (front back : List Char), kind ≠ intrinsic →
        text = front ++ back → kind.acceptsChars front = false := by
      intro kind front back notIntrinsic split
      refine Bool.eq_false_iff.mpr fun accepted => ?_
      obtain ⟨cut, found⟩ := munch?_append accepted back
      have taken : kind.take? text = some cut := by
        rw [take?, split, found]
        simp [mayStand, notIntrinsic]
      exact absurd ((notTaken kind).symm.trans taken) (by simp)
    intro kind front back split
    by_cases isIntrinsic : kind = intrinsic
    · subst isIntrinsic
      refine Bool.eq_false_iff.mpr fun accepted => ?_
      have refused := ordinary uppercase front back (by decide) split
      rw [uppercase_of_intrinsic accepted] at refused
      cases refused
    · exact ordinary kind front back isIntrinsic split
  · intro noToken
    cases found : lexeme? text with
    | none => rfl
    | some lexeme =>
        obtain ⟨splits, accepted, _⟩ := lexeme?_sound found
        rw [noToken _ _ _ splits.symm] at accepted
        cases accepted

/-- A token has characters. -/
theorem ne_nil_of_acceptsChars {kind : Kind} {text : List Char}
    (accepted : kind.acceptsChars text = true) : text ≠ [] := by
  rintro rfl
  cases kind <;> cases accepted

end Kind
end GrammarBook
