import GrammarBook.Proofs.Analysis.Completion
import GrammarBook.Proofs.Analysis.Delimiter
import GrammarBook.Proofs.Regex.Grammar

namespace GrammarBook

open Regex

/-!
# Well-formed regular expressions

The text of a pattern is a regular expression of the grammar, wherever its fragments come to stand.
An element ends in an atom, since its parts are right and its lists are filled, so that a quantifier
behind it has something to repeat; what stands for a name is a group. The characters that are quoted
in the text are those of the glyphs and literals of the pattern, with those of the patterns that its
names stand for.
-/

/-! ## Quoted characters -/

/-- The characters that a part quotes, given those that a name stands for. -/
def Part.quoted (quotedOf : String → List Char) : Part → List Char
  | leaf .glyph glyph => (Token.glyphCharacter? glyph).toList
  | leaf .literal literal => (Token.literalText literal).toList
  | use (.lower name) => quotedOf name
  | _ => []

/-- The characters that parts quote. -/
def quotedIn (quotedOf : String → List Char) (parts : List Part) : List Char :=
  parts.flatMap (Part.quoted quotedOf)

/-- The names of expressions stand for the characters that these quote. -/
def Document.IsQuotation (document : Document) (quotedOf : String → List Char) : Prop :=
  ∀ expression ∈ document.expressions,
    quotedOf expression.name = quotedIn quotedOf expression.pattern.parts

section Patterns

variable {textOf : String → String} {quotedOf : String → List Char}

@[simp] theorem quotedIn_nil : quotedIn quotedOf [] = [] := rfl

theorem quotedIn_append (front back : List Part) :
    quotedIn quotedOf (front ++ back) = quotedIn quotedOf front ++ quotedIn quotedOf back :=
  List.flatMap_append

/-! ## Glyphs -/

theorem areMembers_bounded {bounded : Bounded} (sound : ∀ part ∈ bounded.parts, part.IsSound) :
    AreMembers (charsOf textOf bounded.rangeFragments) (quotedIn quotedOf bounded.parts) := by
  rw [Bounded.rangeFragments, Bounded.parts, charsOf_append]
  rcases bounded_cases sound with ⟨c, quoted, alone⟩ | ⟨low, last, high, quoted, ranges, ends, ascends⟩
  · have single : IsMember (escapeChar c) [c] := .single (quotes_escapeChar c)
    rw [alone, charsOf_glyph quoted]
    simpa [quotedIn, Part.quoted, Part.leaf?, quoted] using AreMembers.last single
  · have range : IsMember (escapeChar low ++ '-' :: escapeChar high) [low, high] :=
      .range (quotes_escapeChar low) (quotes_escapeChar high) ascends
    rw [ranges, charsOf_glyph quoted, Option.elim_some, charsOf_text, charsOf_glyph ends]
    simpa [quotedIn, Part.quoted, Part.leaf?, quoted, ends] using AreMembers.last range

/-- Outside of a filter a glyph is a character, and a range of glyphs a class. -/
theorem endsInAtom_bounded {bounded : Bounded} (sound : ∀ part ∈ bounded.parts, part.IsSound) :
    EndsInAtom (charsOf textOf bounded.fragments) (quotedIn quotedOf bounded.parts) := by
  rw [Bounded.fragments]
  rcases bounded_cases sound with ⟨c, quoted, alone⟩ | ⟨_, last, _, _, ranges, _⟩
  · have single : WellFormed .atom (escapeChar c) [c] := .character (quotes_escapeChar c)
    rw [Bounded.rangeFragments, Bounded.parts, alone, Option.isSome_none,
      if_neg Bool.false_ne_true, charsOf_append, charsOf_glyph quoted]
    simpa [quotedIn, Part.quoted, Part.leaf?, quoted] using EndsInAtom.atom single
  · rw [ranges, Option.isSome_some, if_pos rfl, charsOf_text, charsOf_append, charsOf_single,
      ← List.append_assoc]
    exact .atom (.set false (areMembers_bounded sound))

/-! ## Intrinsics and filters -/

/-- In a filter an intrinsic is a shorthand, or two for any character. -/
theorem areMembers_intrinsic {name : String} (accepted : Kind.intrinsic.accepts name = true) :
    AreMembers (charsOf textOf (intrinsicFragments name true)) [] := by
  have member := mem_of_accepts accepted
  simp only [intrinsicNames, List.mem_cons, List.not_mem_nil, or_false] at member
  rw [intrinsicFragments]
  rcases member with rfl | rfl | rfl | rfl | rfl | rfl
  all_goals
    change AreMembers (charsOf textOf [.text _]) []
    rw [charsOf_single]
  case inl =>
    have space : IsMember ['\\', 's'] [] := .shorthand (by decide)
    have other : IsMember ['\\', 'S'] [] := .shorthand (by decide)
    exact .next space (.last other)
  all_goals exact .last (.shorthand (by decide))

theorem endsInAtom_intrinsic {name : String} (accepted : Kind.intrinsic.accepts name = true) :
    EndsInAtom (charsOf textOf (intrinsicFragments name false)) [] := by
  have member := mem_of_accepts accepted
  simp only [intrinsicNames, List.mem_cons, List.not_mem_nil, or_false] at member
  rw [intrinsicFragments]
  rcases member with rfl | rfl | rfl | rfl | rfl | rfl
  all_goals
    change EndsInAtom (charsOf textOf [.text _]) []
    rw [charsOf_single]
  case inl => exact .atom .anyCharacter
  case inr.inr.inr.inl => exact endsInAtom_lineEnd
  all_goals exact .atom (.shorthand (by decide))

theorem areMembers_character {character : Character}
    (sound : ∀ part ∈ character.parts, part.IsSound) :
    AreMembers (charsOf textOf character.fragments) (quotedIn quotedOf character.parts) := by
  cases character with
  | bounded range => exact areMembers_bounded sound
  | intrinsic name => exact areMembers_intrinsic (sound _ (List.mem_singleton_self _))

theorem areMembers_characters {characters : List Character} (nonempty : characters ≠ [])
    (sound : ∀ part ∈ characters.flatMap Character.parts, part.IsSound) :
    AreMembers (charsOf textOf (characters.flatMap Character.fragments))
      (quotedIn quotedOf (characters.flatMap Character.parts)) := by
  induction characters with
  | nil => exact absurd rfl nonempty
  | cons character others ih =>
      rw [List.flatMap_cons] at sound
      rcases List.forall_mem_append.mp sound with ⟨first, later⟩
      rw [List.flatMap_cons, List.flatMap_cons, charsOf_append, quotedIn_append]
      cases others with
      | nil =>
          rw [List.flatMap_nil, List.flatMap_nil, charsOf_nil, List.append_nil, quotedIn_nil,
            List.append_nil]
          exact areMembers_character first
      | cons next others => exact (areMembers_character first).append (ih (List.cons_ne_nil _ _) later)

theorem quotedIn_filter (filter : Filter) : quotedIn quotedOf filter.parts =
    quotedIn quotedOf (filter.characters.flatMap Character.parts) := by
  have excluded : quotedIn quotedOf (Part.leaf? .excluded filter.excluded) = [] := by
    cases filter.excluded with
    | none => rfl
    | some mark => rfl
  change quotedIn quotedOf (Part.leaf? .excluded filter.excluded ++ _) = _
  rw [quotedIn_append, excluded, List.nil_append]

/-- A filter is a class, which is not empty. -/
theorem endsInAtom_filter {filter : Filter} (sound : ∀ part ∈ filter.parts, part.IsSound)
    (filled : filter.isFilled = true) :
    EndsInAtom (charsOf textOf filter.fragments) (quotedIn quotedOf filter.parts) := by
  have nonempty : filter.characters ≠ [] := by simpa [Filter.isFilled] using filled
  have soundMembers : ∀ part ∈ filter.characters.flatMap Character.parts, part.IsSound := by
    intro part member
    exact sound part (List.mem_cons_of_mem _ (List.mem_append_right _ member))
  have starts : (if filter.isExcluded then "[^" else "[").toList = classStart filter.isExcluded := by
    cases filter.isExcluded <;> rfl
  rw [Filter.fragments, charsOf_text, charsOf_append, charsOf_single, starts, ← List.append_assoc,
    quotedIn_filter]
  exact .atom (.set filter.isExcluded (areMembers_characters nonempty soundMembers))

/-! ## Quantifiers -/

theorem isRepeat_constraint {constraint : Constraint}
    (sound : ∀ part ∈ constraint.parts, part.IsSound) :
    IsRepeat (Analyzer.quantifier constraint).toList := by
  have isMinimum : (Part.leaf .number constraint.minimum).IsSound :=
    sound _ (by simp [Constraint.parts])
  have minimumCount : IsCount constraint.minimum.toList := digits_of_accepts isMinimum
  have ascends := constraint.ascends sound
  rcases constraint with ⟨minimum, limit⟩
  rcases limit with _ | ⟨_ | maximum⟩
  · simpa [Analyzer.quantifier, countQuantifier] using IsRepeat.exactly minimumCount
  · simpa [Analyzer.quantifier, countQuantifier] using IsRepeat.atLeast minimumCount
  · have isMaximum : (Part.leaf .number maximum).IsSound :=
      sound _ (by simp [Constraint.parts, Part.leaf?])
    have maximumCount : IsCount maximum.toList := digits_of_accepts isMaximum
    have between := IsRepeat.between minimumCount maximumCount (ascends _ rfl)
    simpa [Analyzer.quantifier, countQuantifier] using between

theorem isRepeat_cardinality {cardinality : Cardinality}
    (sound : ∀ part ∈ cardinality.parts, part.IsSound) :
    IsRepeat cardinality.quantifier.toList := by
  cases cardinality with
  | constrained constraint => exact isRepeat_constraint sound
  | quantified mark =>
      have accepted : (Part.leaf .quantified mark).IsSound := sound _ (List.mem_singleton_self _)
      have marks : (mark.toList == ['?'] || mark.toList == ['*'] || mark.toList == ['+']) = true :=
        accepted
      simp only [Bool.or_eq_true, beq_iff_eq] at marks
      rw [Cardinality.quantifier]
      rcases marks with (isMark | isMark) | isMark
      · rw [isMark]
        exact .optional
      · rw [isMark]
        exact .any
      · rw [isMark]
        exact .some

theorem quotedIn_cardinality (cardinality : Option Cardinality) :
    quotedIn quotedOf (Cardinality.parts? cardinality) = [] := by
  rcases cardinality with _ | mark | ⟨minimum, _ | ⟨_ | maximum⟩⟩
  all_goals rfl

/-- An element and the quantifier behind it are a row. -/
theorem Regex.EndsInAtom.wellFormed_repeated {text quoted : List Char}
    (ends : EndsInAtom text quoted) {cardinality : Option Cardinality}
    (sound : ∀ part ∈ Cardinality.parts? cardinality, part.IsSound) (isLazy : Bool) :
    WellFormed .row (text ++ charsOf textOf (quantifierFragments cardinality isLazy)) quoted := by
  cases cardinality with
  | none =>
      change WellFormed .row (text ++ charsOf textOf []) quoted
      rw [charsOf_nil, List.append_nil]
      exact ends.row
  | some cardinality =>
      have mark : charsOf textOf (if isLazy then [.text "?"] else []) = lazyMark isLazy := by
        cases isLazy with
        | true => exact charsOf_single "?"
        | false => exact charsOf_nil
      change WellFormed .row (text ++ charsOf textOf
        (.text cardinality.quantifier :: if isLazy then [.text "?"] else [])) quoted
      rw [charsOf_text, mark]
      exact ends.repeated (isRepeat_cardinality sound) isLazy

/-! ## Patterns -/

theorem endsInAtom_atom {atom : Atom} (sound : ∀ part ∈ atom.parts, part.IsSound)
    (written : ∀ name ∈ atom.names, WellFormed .atom (textOf name).toList (quotedOf name)) :
    EndsInAtom (charsOf textOf atom.fragments) (quotedIn quotedOf atom.parts) := by
  cases atom with
  | bounded range => exact endsInAtom_bounded sound
  | intrinsic name => exact endsInAtom_intrinsic (sound _ (List.mem_singleton_self _))
  | literal text =>
      have nonempty := literalText_ne_nil (sound _ (List.mem_singleton_self _))
      rw [Atom.fragments, charsOf_single, toList_escape]
      simpa [quotedIn, Atom.parts, Part.quoted] using endsInAtom_escape nonempty
  | lowercase name =>
      rw [Atom.fragments, charsOf_reference]
      simpa [quotedIn, Atom.parts, Part.quoted] using
        EndsInAtom.atom (written name (List.mem_singleton_self _))

/-- What is a choice is an atom within the brackets of a group. -/
theorem wellFormed_grouped {fragments : List Fragment} {quoted : List Char}
    (inner : WellFormed .choice (charsOf textOf fragments) quoted) :
    WellFormed .atom (charsOf textOf (.text groupStart :: (fragments ++ [Fragment.text ")"])))
      quoted := by
  have group := inner.group
  rw [charsOf_text, charsOf_append, charsOf_single, ← List.append_assoc]
  exact group

mutual

/-- The text of a pattern is a choice. -/
theorem wellFormed_pattern : (pattern : Pattern) → (∀ part ∈ pattern.parts, part.IsSound) →
    pattern.isFilled = true →
    (∀ name ∈ pattern.names, WellFormed .atom (textOf name).toList (quotedOf name)) →
    WellFormed .choice (charsOf textOf pattern.fragments) (quotedIn quotedOf pattern.parts)
  | .mk first alternatives, sound, filled, written => by
    rcases List.forall_mem_append.mp sound with ⟨soundFirst, soundOthers⟩
    rcases List.forall_mem_append.mp written with ⟨writtenFirst, writtenOthers⟩
    rcases Bool.and_eq_true_iff.mp filled with ⟨filledFirst, filledOthers⟩
    rw [Pattern.fragments, Pattern.parts, charsOf_append, quotedIn_append]
    exact wellFormed_alternatives alternatives soundOthers filledOthers writtenOthers
      (wellFormed_sequence first soundFirst filledFirst writtenFirst)

/-- Behind a row alternatives make a choice of it. -/
theorem wellFormed_alternatives {text quoted : List Char} : (alternatives : List Sequence) →
    (∀ part ∈ Sequence.listParts alternatives, part.IsSound) →
    Sequence.allFilled alternatives = true →
    (∀ name ∈ Sequence.listNames alternatives,
      WellFormed .atom (textOf name).toList (quotedOf name)) →
    WellFormed .row text quoted →
    WellFormed .choice (text ++ charsOf textOf (Sequence.alternativeFragments alternatives))
      (quoted ++ quotedIn quotedOf (Sequence.listParts alternatives))
  | [], _, _, _, row => by
    rw [Sequence.alternativeFragments, Sequence.listParts, charsOf_nil, quotedIn_nil,
      List.append_nil, List.append_nil]
    exact .only row
  | sequence :: others, sound, filled, written, row => by
    rcases List.forall_mem_append.mp sound with ⟨soundFirst, soundOthers⟩
    rcases List.forall_mem_append.mp written with ⟨writtenFirst, writtenOthers⟩
    rcases Bool.and_eq_true_iff.mp filled with ⟨filledFirst, filledOthers⟩
    rw [Sequence.alternativeFragments, Sequence.listParts, charsOf_text, charsOf_append,
      quotedIn_append]
    exact .either row (wellFormed_alternatives others soundOthers filledOthers writtenOthers
      (wellFormed_sequence sequence soundFirst filledFirst writtenFirst))

theorem wellFormed_sequence : (sequence : Sequence) → (∀ part ∈ sequence.parts, part.IsSound) →
    sequence.isFilled = true →
    (∀ name ∈ sequence.names, WellFormed .atom (textOf name).toList (quotedOf name)) →
    WellFormed .row (charsOf textOf sequence.fragments) (quotedIn quotedOf sequence.parts)
  | .mk repetitions, sound, filled, written => by
    rcases Bool.and_eq_true_iff.mp filled with ⟨some, filledAll⟩
    have nonempty : repetitions ≠ [] := by simpa using some
    exact wellFormed_row repetitions nonempty sound filledAll written

/-- Repetitions in a row, of which there are some. -/
theorem wellFormed_row : (repetitions : List Repetition) → repetitions ≠ [] →
    (∀ part ∈ Repetition.listParts repetitions, part.IsSound) →
    Repetition.allFilled repetitions = true →
    (∀ name ∈ Repetition.listNames repetitions,
      WellFormed .atom (textOf name).toList (quotedOf name)) →
    WellFormed .row (charsOf textOf (Repetition.rowFragments repetitions))
      (quotedIn quotedOf (Repetition.listParts repetitions))
  | [], nonempty, _, _, _ => absurd rfl nonempty
  | repetition :: others, _, sound, filled, written => by
    rcases List.forall_mem_append.mp sound with ⟨soundFirst, soundOthers⟩
    rcases List.forall_mem_append.mp written with ⟨writtenFirst, writtenOthers⟩
    rcases Bool.and_eq_true_iff.mp filled with ⟨filledFirst, filledOthers⟩
    have first := wellFormed_repetition repetition soundFirst filledFirst writtenFirst
    rw [Repetition.rowFragments, Repetition.listParts, charsOf_append, quotedIn_append]
    -- Behind the last repetition there is no row, not an empty one.
    cases others with
    | nil =>
        rw [Repetition.rowFragments, Repetition.listParts, charsOf_nil, quotedIn_nil,
          List.append_nil, List.append_nil]
        exact first
    | cons next others =>
        exact first.append (wellFormed_row (next :: others) (List.cons_ne_nil _ _) soundOthers
          filledOthers writtenOthers)

theorem wellFormed_repetition : (repetition : Repetition) →
    (∀ part ∈ repetition.parts, part.IsSound) → repetition.isFilled = true →
    (∀ name ∈ repetition.names, WellFormed .atom (textOf name).toList (quotedOf name)) →
    WellFormed .row (charsOf textOf repetition.fragments) (quotedIn quotedOf repetition.parts)
  | .mk element cardinality, sound, filled, written => by
    rcases List.forall_mem_append.mp sound with ⟨soundElement, soundCardinality⟩
    have ends := endsInAtom_element element soundElement filled written
    rw [Repetition.fragments, Repetition.parts, charsOf_append, quotedIn_append,
      quotedIn_cardinality, List.append_nil]
    exact ends.wellFormed_repeated soundCardinality _

theorem endsInAtom_element : (element : Element) → (∀ part ∈ element.parts, part.IsSound) →
    element.isFilled = true →
    (∀ name ∈ element.names, WellFormed .atom (textOf name).toList (quotedOf name)) →
    EndsInAtom (charsOf textOf element.fragments) (quotedIn quotedOf element.parts)
  | .group pattern, sound, filled, written => by
    rw [Element.fragments]
    exact .atom (wellFormed_grouped (wellFormed_pattern pattern sound filled written))
  | .filter filter, sound, filled, _ => endsInAtom_filter sound filled
  | .atom atom, sound, _, written => endsInAtom_atom sound written

end

end Patterns

/-! ## Documents -/

namespace Document

variable {document : Document} {quotedOf : String → List Char}

/-- What a pattern quotes depends on the names in it only. -/
theorem dependsOnNames_quotedIn :
    DependsOnNames fun pattern quotedOf => quotedIn quotedOf pattern.parts := by
  intro pattern left right same
  refine List.flatMap_congr fun part member => ?_
  rcases part with ⟨kind, text⟩ | name | _ | _ | _
  case leaf => cases kind <;> rfl
  case use =>
    cases name with
    | upper name => rfl
    | lower name =>
        apply same
        rw [← pattern.filterMap_expression?]
        exact List.mem_filterMap.mpr ⟨_, member, rfl⟩
  all_goals rfl

/-- What is written for an expression is a group of the grammar. -/
theorem wellFormed_textOf (valid : document.IsValid) (quotation : document.IsQuotation quotedOf)
    (defined : document.compiled.IsDefined) (acyclic : document.compiled.IsAcyclic)
    (filled : ∀ expression ∈ document.expressions, expression.pattern.isFilled = true)
    {expression : Expression} (member : expression ∈ document.expressions) :
    WellFormed .atom (document.compiled.textOf expression.name).toList
      (quotedOf expression.name) := by
  have distinct := valid.distinctExpressions
  induction named : expression.name using
    (FragmentTable.wellFounded_refers defined acyclic).induction generalizing expression with
  | _ name ih =>
      subst named
      have entered := get?_compiled distinct member
      rw [FragmentTable.textOf_eq defined acyclic entered, quotation expression member]
      -- What the names in the pattern stand for has been written before.
      refine wellFormed_grouped (wellFormed_pattern expression.pattern (valid.soundPattern member)
        (filled expression member) fun target refers => ?_)
      rcases exists_referred distinct defined member refers with ⟨other, known, rfl⟩
      exact ih other.name ((refers_iff distinct member).mpr refers) known rfl

end Document

/-! ## Literals of rules -/

/-- Texts that stand for themselves, each behind a bar, make a choice of a row. -/
theorem Regex.WellFormed.barred {text quoted : List Char} (row : WellFormed .row text quoted)
    {texts : List String} (filled : ∀ text ∈ texts, text ≠ "") :
    WellFormed .choice (text ++ barred texts) (quoted ++ texts.flatMap String.toList) := by
  induction texts generalizing text quoted with
  | nil =>
      rw [Regex.barred, List.flatMap_nil, List.flatMap_nil, List.append_nil, List.append_nil]
      exact .only row
  | cons next texts ih =>
      rcases List.forall_mem_cons.mp filled with ⟨first, others⟩
      have spelled := endsInAtom_escape fun none => first (String.toList_eq_nil_iff.mp none)
      exact .either row (ih spelled.row others)

/-- The regular expression of literals is a group, in which they are quoted. -/
theorem wellFormed_delimiter {literals : NameSet} (some : literals.isEmpty = false)
    (filled : "" ∉ literals.toList) :
    WellFormed .atom (Delimiter.regex literals).toList
      ((Delimiter.longestFirst literals).flatMap String.toList) := by
  have nonempty : ∀ text ∈ Delimiter.longestFirst literals, text ≠ "" := by
    rintro text member rfl
    exact filled (Delimiter.mem_longestFirst.mp member)
  rcases List.exists_cons_of_ne_nil (Delimiter.longestFirst_ne_nil some) with
    ⟨first, others, ordered⟩
  rw [ordered] at nonempty
  rcases List.forall_mem_cons.mp nonempty with ⟨firstNonempty, othersNonempty⟩
  have spelled := endsInAtom_escape fun none => firstNonempty (String.toList_eq_nil_iff.mp none)
  have group := (spelled.row.barred othersNonempty).group
  rw [grouped, ← toList_intercalate_escape] at group
  rw [Delimiter.regex, ordered, String.toList_append, String.toList_append]
  exact group

/-! ## Analyses -/

/-- What is found under a name that no expression has stands under the name for the literals. -/
theorem Analyzer.Concludes.eq_delimiterName {delimiterName name regex : String} {findings : Findings}
    {regexes : NameTable String} {analysis : Analysis}
    (concludes : Concludes delimiterName findings regexes analysis) (unknown : name ∉ regexes.keys)
    (found : analysis.regexOf? name = some regex) : name = delimiterName := by
  have absent : regexes.get? name ≠ some regex := fun found =>
    unknown (NameTable.mem_keys_iff.mpr ⟨regex, found⟩)
  rw [Analysis.regexOf?, concludes.regexes] at found
  split at found
  · rw [NameTable.get?_sorted, NameTable.get?_put] at found
    split at found
    · assumption
    · exact absurd found absent
  · exact absurd found absent

/-- Every regular expression of an analysis belongs to the grammar. That of an expression quotes the
glyphs and literals of its pattern, and of the patterns that its names stand for. That of the literals
quotes each of those in the rules once. Which characters are quoted can be read off the text alone. -/
theorem regexes_are_well_formed {source : String} {analysis : Analysis}
    (analyzed : analyzeSource source = .ok analysis) :
    ∃ (document : Document) (quotedOf : String → List Char),
      ({} : Parser).parse source = .ok document ∧ document.IsQuotation quotedOf ∧
      (∀ other, document.IsQuotation other →
        ∀ expression ∈ document.expressions, other expression.name = quotedOf expression.name) ∧
      ∀ name regex, analysis.regexOf? name = some regex →
        (∃ expression ∈ document.expressions, expression.name = name ∧
          WellFormed .choice regex.toList (quotedOf name) ∧
          quotedFrom .plain regex.toList = quotedOf name) ∨
        (name = Delimiter.defaultName ∧
          (∀ expression ∈ document.expressions, expression.name ≠ name) ∧
          ∃ literals : List String, literals.Nodup ∧
            (∀ text, text ∈ literals ↔ document.UsesLiteral text) ∧
            WellFormed .choice regex.toList (literals.flatMap String.toList) ∧
            quotedFrom .plain regex.toList = literals.flatMap String.toList) := by
  rcases concludes_of_analyzeSource analyzed with ⟨document, read, accepted, regexes, concludes⟩
  have valid := Document.isValid_of_validate accepted
  have distinct := valid.distinctExpressions
  rcases FragmentTable.resolved_of_resolve concludes.resolved with ⟨defined, acyclic, keys, texts⟩
  have quotes : ∃ quotedOf, document.IsQuotation quotedOf :=
    Document.exists_solves distinct defined acyclic [] Document.dependsOnNames_quotedIn
  rcases quotes with ⟨quotedOf, quotation⟩
  have written := Parser.hasSource_of_parse _ read
  have filled : ∀ expression ∈ document.expressions, expression.pattern.isFilled = true :=
    fun expression member =>
      (Grammar.isWritable_expression_iff.mp (written.expressions expression member)).1
  refine ⟨document, quotedOf, read, quotation, ?_, fun name regex found => ?_⟩
  · intro other alsoQuotation
    exact Document.Solves.unique distinct defined acyclic Document.dependsOnNames_quotedIn
      alsoQuotation quotation
  by_cases known : name ∈ regexes.keys
  · have isKey : name ∈ document.compiled.keys := keys ▸ known
    rw [concludes.regexOf?_eq known, texts name isKey] at found
    rcases Option.some.inj found with rfl
    rcases List.mem_map.mp (Document.mem_keys_compiled.mp isKey) with ⟨expression, member, rfl⟩
    have group := Document.wellFormed_textOf valid quotation defined acyclic filled member
    exact .inl ⟨expression, member, rfl, group.choice_of_atom, group.quoted_eq.symm⟩
  · rcases concludes.eq_delimiterName known found with rfl
    rcases (concludes.regexOf?_delimiter_iff known).mp found with ⟨some, rfl⟩
    have nonempty : "" ∉ document.findings.literals.toList := by
      rw [← Document.usesLiteral_iff]
      exact valid.not_usesLiteral_empty
    rw [Analyzer.keys_of_concludes valid concludes] at known
    have group := wellFormed_delimiter some nonempty
    refine .inr ⟨rfl, fun expression member named => ?_, _, Delimiter.nodup_longestFirst _,
      fun _ => Document.mem_longestFirst_iff, group.choice_of_atom, group.quoted_eq.symm⟩
    exact known (named ▸ List.mem_map_of_mem member)

/-- The letter in the expression and the dots in the rule are quoted where they belong. -/
theorem dottedSource_well_formed :
    ∃ (analysis : Analysis) (regex : String) (literals : List String),
      analyzeSource dottedSource = .ok analysis ∧
      analysis.regexOf? "a" = some "(?:x)" ∧ WellFormed .choice "(?:x)".toList ['x'] ∧
      analysis.regexOf? "delimiter" = some regex ∧ "." ∈ literals ∧ ".." ∈ literals ∧
      WellFormed .choice regex.toList (literals.flatMap String.toList) := by
  rcases analyze_dottedSource with ⟨analysis, analyzed, found, foundLetter⟩
  rcases regexes_are_well_formed analyzed with ⟨document, quotedOf, read, quotation, _, wellFormed⟩
  rcases Except.ok.inj (parse_dottedSource.symm.trans read) with rfl
  have quoted : quotedOf "a" = ['x'] := quotation _ (List.mem_singleton_self _)
  rcases wellFormed _ _ foundLetter with ⟨_, _, _, letter, _⟩ | ⟨named, _⟩
  · rcases wellFormed _ _ found with
      ⟨expression, member, named, _⟩ | ⟨_, _, literals, _, used, dots, _⟩
    · rw [List.mem_singleton.mp member] at named
      exact absurd named (by decide)
    · exact ⟨analysis, _, literals, analyzed, foundLetter, quoted ▸ letter, found,
        (used ".").mpr dottedDocument_usesLiterals.1, (used "..").mpr dottedDocument_usesLiterals.2,
        dots⟩
  · exact absurd named (by decide)

end GrammarBook
