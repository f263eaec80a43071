import GrammarBook.Proofs.Analysis.Written

namespace GrammarBook

open Regex

/-!
# Languages of the trees of patterns

The tree that a pattern is read as has the language of the pattern, if the trees for the names in it
have theirs, unless a quantifier tears an element of several pieces apart: it then repeats the last of
them alone.
-/

variable {alphabet : Alphabet} {treeOf : String → Expr} {meaning : String → Language Char}

/-! ## Characters -/

theorem any_categoryMembers (name : String) (c : Char) :
    (categoryMembers name).any (·.accepts alphabet c) = categoryAccepts alphabet name c := by
  rw [categoryMembers, categoryAccepts]
  cases intrinsicCategory? name <;> simp [Member.accepts]

theorem any_boundedMembers (bounded : Bounded) (c : Char) :
    bounded.members.any (·.accepts alphabet c) = bounded.accepts c := by
  rw [Bounded.members, Bounded.accepts]
  cases Token.glyphCharacter? bounded.glyph with
  | none => simp
  | some low =>
      cases bounded.extent with
      | none => simp [Member.accepts]
      | some last =>
          dsimp only
          cases Token.glyphCharacter? last <;> simp [Member.accepts]

theorem any_characterMembers (character : Character) (c : Char) :
    character.members.any (·.accepts alphabet c) = character.accepts alphabet c := by
  cases character with
  | bounded range => exact any_boundedMembers range c
  | intrinsic name =>
      rw [Character.members, Character.accepts]
      split
      · cases space : alphabet.isSpace c <;> simp [Member.accepts, space]
      · split
        · simp [Member.accepts, eq_comm]
        · exact any_categoryMembers name c

theorem accepts_charClass (filter : Filter) :
    filter.charClass.accepts alphabet = filter.accepts alphabet := by
  funext c
  rw [CharClass.accepts, Filter.charClass, Filter.accepts, List.any_flatMap]
  simp only [any_characterMembers]

/-! ## Elements -/

theorem language_class {isExcluded : Bool} {members : List Member} {holds : Char → Bool}
    (same : ∀ c, (isExcluded != members.any (·.accepts alphabet c)) = holds c) :
    (Expr.row [.one ⟨isExcluded, members⟩]).language alphabet = characters holds := by
  rw [language_row_one]
  exact congrArg characters (funext same)

theorem language_intrinsicPieces (name : String) :
    (Expr.row (intrinsicPieces name)).language alphabet = intrinsicLanguage alphabet name := by
  rw [intrinsicPieces, intrinsicLanguage]
  split
  · exact language_class fun c => by simp [Member.accepts, bne, eq_comm]
  · split
    · exact language_lineEnd alphabet
    · exact language_class fun c => by rw [any_categoryMembers, Bool.false_bne]

theorem language_atomPieces {atom : Atom}
    (same : ∀ name ∈ atom.names, (treeOf name).language alphabet = meaning name) :
    (Expr.row (atom.pieces treeOf)).language alphabet = atom.language alphabet meaning := by
  cases atom with
  | bounded range => exact language_class fun c => by rw [any_boundedMembers, Bool.false_bne]
  | intrinsic name => exact language_intrinsicPieces name
  | literal text => exact language_spelledOut alphabet _
  | lowercase name =>
      rw [Atom.pieces, language_row_one]
      exact same name (List.mem_singleton_self name)

theorem pieces_ne_nil {element : Element} (sound : ∀ part ∈ element.parts, part.IsSound) :
    element.pieces treeOf ≠ [] := by
  rcases element with pattern | filter | ⟨range | name | text | name⟩
  case atom.literal =>
    have accepted : (Part.leaf .literal text).IsSound := sound _ (List.mem_singleton_self _)
    simpa [Element.pieces, Atom.pieces, spelledOut] using literalText_ne_nil accepted
  case atom.intrinsic =>
    rw [Element.pieces, Atom.pieces, intrinsicPieces]
    split
    · exact List.cons_ne_nil _ _
    · split <;> exact List.cons_ne_nil _ _
  all_goals exact List.cons_ne_nil _ _

/-- An element that is not loose is a single piece. -/
theorem exists_piece {element : Element} (sound : ∀ part ∈ element.parts, part.IsSound)
    (firm : element.isLoose = false) : ∃ piece, element.pieces treeOf = [piece] := by
  rcases element with pattern | filter | ⟨range | name | text | name⟩
  case atom.literal =>
    have some : spelledOut (Token.literalText text).toList ≠ [] :=
      (pieces_ne_nil sound : (Element.atom (.literal text)).pieces treeOf ≠ [])
    have short : (Token.literalText text).toList.length ≤ 1 := by
      simpa [Element.isLoose] using firm
    apply List.length_eq_one_iff.mp
    have positive := List.length_pos_iff.mpr some
    change (spelledOut (Token.literalText text).toList).length = 1
    rw [spelledOut, List.length_map] at positive ⊢
    omega
  case atom.intrinsic =>
    have other : name ≠ "EOL" := by simpa [Element.isLoose] using firm
    rw [Element.pieces, Atom.pieces, intrinsicPieces, if_neg other]
    split <;> exact ⟨_, rfl⟩
  all_goals exact ⟨_, rfl⟩

/-- Unless it is torn, an element is repeated as often as its cardinality says. -/
theorem language_repeatedPieces {element : Element} {cardinality : Option Cardinality}
    (sound : ∀ part ∈ element.parts, part.IsSound)
    (whole : ¬ (Repetition.mk element cardinality).IsTorn)
    (same : (Expr.row (element.pieces treeOf)).language alphabet =
      element.language alphabet meaning) :
    (Expr.row (repeatedPieces cardinality (element.pieces treeOf))).language alphabet =
      (Repetition.mk element cardinality).language alphabet meaning := by
  cases cardinality with
  | none => exact same
  | some cardinality =>
      change (Expr.row (quantifyLast cardinality.counts (element.pieces treeOf))).language alphabet =
        repetition cardinality.counts (element.language alphabet meaning)
      by_cases once : cardinality.counts = .once
      · rw [once, language_quantifyLast_once alphabet (pieces_ne_nil sound), same, repetition_once]
      · have firm : element.isLoose = false := by
          rw [← Bool.not_eq_true]
          exact fun loose => whole ⟨loose, cardinality, rfl, once⟩
        obtain ⟨piece, single⟩ : ∃ piece, element.pieces treeOf = [piece] := exists_piece sound firm
        rw [single, language_row_one] at same
        rw [single, language_quantifyLast_one, same]

/-- A quantifier behind a loose element repeats it only if it allows once alone. -/
theorem counts_eq_once {element : Element} (loose : element.isLoose = true) {counts : Counts}
    (ascending : ∀ maximum ∈ counts.maximum, counts.minimum ≤ maximum)
    (same : (Expr.row (quantifyLast counts (element.pieces treeOf))).language alphabet =
      repetition counts (element.language alphabet meaning)) : counts = .once := by
  rcases element with pattern | filter | ⟨range | name | text | name⟩
  case atom.literal =>
    have several : 1 < (Token.literalText text).toList.length := of_decide_eq_true loose
    exact (language_quantifyLast_spelledOut_iff alphabet several ascending).mp same
  case atom.intrinsic =>
    obtain rfl : name = "EOL" := beq_iff_eq.mp loose
    exact (language_quantifyLast_lineEnd_iff alphabet ascending).mp same
  all_goals cases loose

/-- What a torn repetition is read as does not repeat its element. -/
theorem language_pieces_ne {repetition : Repetition}
    (sound : ∀ part ∈ repetition.parts, part.IsSound) (torn : repetition.IsTorn) :
    (Expr.row (repetition.pieces treeOf)).language alphabet ≠
      repetition.language alphabet meaning := by
  rcases repetition with ⟨element, cardinality⟩
  obtain ⟨loose, cardinality, rfl, notOnce⟩ := torn
  intro same
  have soundCardinality := (List.forall_mem_append.mp sound).2
  exact notOnce (counts_eq_once loose (cardinality.ascends soundCardinality) same)

/-! ## Patterns -/

mutual

theorem language_tree : (pattern : Pattern) → (∀ part ∈ pattern.parts, part.IsSound) →
    (∀ repetition ∈ pattern.contained, ¬ repetition.IsTorn) →
    (∀ name ∈ pattern.names, (treeOf name).language alphabet = meaning name) →
    (pattern.tree treeOf).language alphabet = pattern.language alphabet meaning
  | .mk first alternatives, sound, whole, same => by
    obtain ⟨soundFirst, soundOthers⟩ := List.forall_mem_append.mp sound
    obtain ⟨wholeFirst, wholeOthers⟩ := List.forall_mem_append.mp whole
    obtain ⟨sameFirst, sameOthers⟩ := List.forall_mem_append.mp same
    rw [Pattern.tree, language_choiceTree alternatives soundOthers wholeOthers sameOthers,
      language_sequencePieces first soundFirst wholeFirst sameFirst, Pattern.language]

theorem language_choiceTree {earlier : Expr} : (sequences : List Sequence) →
    (∀ part ∈ Sequence.listParts sequences, part.IsSound) →
    (∀ repetition ∈ Sequence.listContained sequences, ¬ repetition.IsTorn) →
    (∀ name ∈ Sequence.listNames sequences, (treeOf name).language alphabet = meaning name) →
    (Sequence.choiceTree treeOf sequences earlier).language alphabet =
      earlier.language alphabet + Sequence.choiceLanguage alphabet meaning sequences
  | [], _, _, _ => (add_zero _).symm
  | sequence :: others, sound, whole, same => by
    obtain ⟨soundFirst, soundOthers⟩ := List.forall_mem_append.mp sound
    obtain ⟨wholeFirst, wholeOthers⟩ := List.forall_mem_append.mp whole
    obtain ⟨sameFirst, sameOthers⟩ := List.forall_mem_append.mp same
    rw [Sequence.choiceTree, language_choiceTree others soundOthers wholeOthers sameOthers,
      Expr.language, language_sequencePieces sequence soundFirst wholeFirst sameFirst, add_assoc,
      Sequence.choiceLanguage]

theorem language_sequencePieces : (sequence : Sequence) →
    (∀ part ∈ sequence.parts, part.IsSound) →
    (∀ repetition ∈ sequence.contained, ¬ repetition.IsTorn) →
    (∀ name ∈ sequence.names, (treeOf name).language alphabet = meaning name) →
    (Expr.row (sequence.pieces treeOf)).language alphabet = sequence.language alphabet meaning
  | .mk repetitions, sound, whole, same => language_rowPieces repetitions sound whole same

theorem language_rowPieces : (repetitions : List Repetition) →
    (∀ part ∈ Repetition.listParts repetitions, part.IsSound) →
    (∀ repetition ∈ Repetition.listContained repetitions, ¬ repetition.IsTorn) →
    (∀ name ∈ Repetition.listNames repetitions, (treeOf name).language alphabet = meaning name) →
    (Expr.row (Repetition.rowPieces treeOf repetitions)).language alphabet =
      Repetition.rowLanguage alphabet meaning repetitions
  | [], _, _, _ => rfl
  | repetition :: others, sound, whole, same => by
    obtain ⟨soundFirst, soundOthers⟩ := List.forall_mem_append.mp sound
    obtain ⟨wholeFirst, wholeOthers⟩ := List.forall_mem_append.mp whole
    obtain ⟨sameFirst, sameOthers⟩ := List.forall_mem_append.mp same
    rw [Repetition.rowPieces, language_row_append,
      language_repetitionPieces repetition soundFirst wholeFirst sameFirst,
      language_rowPieces others soundOthers wholeOthers sameOthers, Repetition.rowLanguage]

theorem language_repetitionPieces : (repetition : Repetition) →
    (∀ part ∈ repetition.parts, part.IsSound) →
    (∀ inner ∈ repetition.contained, ¬ inner.IsTorn) →
    (∀ name ∈ repetition.names, (treeOf name).language alphabet = meaning name) →
    (Expr.row (repetition.pieces treeOf)).language alphabet =
      repetition.language alphabet meaning
  | .mk element cardinality, sound, whole, same => by
    obtain ⟨soundElement, _⟩ := List.forall_mem_append.mp sound
    obtain ⟨wholeHere, wholeInside⟩ := List.forall_mem_cons.mp whole
    exact language_repeatedPieces soundElement wholeHere
      (language_elementPieces element soundElement wholeInside same)

theorem language_elementPieces : (element : Element) → (∀ part ∈ element.parts, part.IsSound) →
    (∀ repetition ∈ element.contained, ¬ repetition.IsTorn) →
    (∀ name ∈ element.names, (treeOf name).language alphabet = meaning name) →
    (Expr.row (element.pieces treeOf)).language alphabet = element.language alphabet meaning
  | .group pattern, sound, whole, same => by
    rw [Element.pieces, language_row_one]
    exact language_tree pattern sound whole same
  | .filter filter, _, _, _ => language_class fun c => congrFun (accepts_charClass filter) c
  | .atom _, _, _, same => language_atomPieces same

end

/-- A pattern that is a torn repetition alone is not read as what it denotes. -/
theorem language_tree_ne {pattern : Pattern} (sound : ∀ part ∈ pattern.parts, part.IsSound)
    {repetition : Repetition} (alone : pattern = .mk (.mk [repetition]) [])
    (torn : repetition.IsTorn) :
    (pattern.tree treeOf).language alphabet ≠ pattern.language alphabet meaning := by
  subst alone
  have tree : (Pattern.mk (.mk [repetition]) []).tree treeOf = .row (repetition.pieces treeOf) := by
    simp [Pattern.tree, Sequence.choiceTree, Sequence.pieces, Repetition.rowPieces]
  have denoted : (Pattern.mk (.mk [repetition]) []).language alphabet meaning =
      repetition.language alphabet meaning := by
    simp [Pattern.language, Sequence.choiceLanguage, Sequence.language, Repetition.rowLanguage]
  rw [tree, denoted]
  refine language_pieces_ne (fun part inside => sound part ?_) torn
  exact List.mem_append_left _ (List.mem_append_left _ inside)

end GrammarBook
