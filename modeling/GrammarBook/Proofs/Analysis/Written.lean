import GrammarBook.Proofs.Analysis.Denotation
import GrammarBook.Proofs.Analysis.Fragments
import GrammarBook.Proofs.Analysis.Resolved
import GrammarBook.Proofs.Layout.Writable
import GrammarBook.Proofs.Validation.Exact

namespace GrammarBook

open Regex Kind

/-!
# What the text of a pattern is read as

The fragments of a pattern, resolved to a text, are read as the pieces given here. A quantifier binds
to the last piece of the element before it. That holds of patterns whose parts are right and whose
lists are filled, when what is written for the names in them is read as one piece.
-/

/-! ## Pieces -/

/-- The members of a class that a glyph or a range of glyphs makes. -/
def Bounded.members (bounded : Bounded) : List Member :=
  match Token.glyphCharacter? bounded.glyph, bounded.extent with
  | some only, none => [.single only]
  | some low, some last => (Token.glyphCharacter? last).toList.map (.range low)
  | none, _ => []

/-- The members of a class that an intrinsic makes which stands for a category. -/
def categoryMembers (name : String) : List Member :=
  (intrinsicCategory? name).toList.map .inCategory

/-- The members of a class that a member of a filter makes. -/
def Character.members : Character → List Member
  | bounded range => range.members
  | intrinsic name =>
    if name = "ANY" then [.space true, .space false]
    else if name = "EOL" then [.single '\n']
    else categoryMembers name

def Filter.charClass (filter : Filter) : CharClass :=
  ⟨filter.isExcluded, filter.characters.flatMap Character.members⟩

/-- The pieces of an intrinsic outside of a filter. -/
def intrinsicPieces (name : String) : List Expr :=
  if name = "ANY" then [.one ⟨true, [.single '\n']⟩]
  else if name = "EOL" then lineEnd
  else [.one ⟨false, categoryMembers name⟩]

/-- The pieces of an element that is repeated or not. -/
def repeatedPieces (cardinality : Option Cardinality) (pieces : List Expr) : List Expr :=
  cardinality.elim pieces fun cardinality => quantifyLast cardinality.counts pieces

section Pieces

variable (treeOf : String → Expr)

def Atom.pieces : Atom → List Expr
  | bounded range => [.one ⟨false, range.members⟩]
  | intrinsic name => intrinsicPieces name
  | literal text => spelledOut (Token.literalText text).toList
  | lowercase name => [treeOf name]

mutual

/-- The tree of a pattern. -/
def Pattern.tree : Pattern → Expr
  | .mk first alternatives => Sequence.choiceTree alternatives (.row first.pieces)

/-- The tree of alternatives behind what comes before them. -/
def Sequence.choiceTree : List Sequence → Expr → Expr
  | [], earlier => earlier
  | sequence :: others, earlier =>
    Sequence.choiceTree others (.choice earlier (.row sequence.pieces))

def Sequence.pieces : Sequence → List Expr
  | .mk repetitions => Repetition.rowPieces repetitions

def Repetition.rowPieces : List Repetition → List Expr
  | [] => []
  | repetition :: others => repetition.pieces ++ Repetition.rowPieces others

def Repetition.pieces : Repetition → List Expr
  | .mk element cardinality => repeatedPieces cardinality element.pieces

def Element.pieces : Element → List Expr
  | .group pattern => [pattern.tree]
  | .filter filter => [.one filter.charClass]
  | .atom atom => atom.pieces treeOf

end

end Pieces

/-! ## Texts of fragments -/

/-- The text is read as the pieces, of which there are some, and begins plainly. -/
structure ReadsPlainly (text : List Char) (pieces : List Expr) : Prop where
  reads : Reads text pieces
  plain : Plain text
  some : pieces ≠ []

/-- The text is read as members of a class, of which there are some, and begins plainly. -/
structure ListsPlainly (text : List Char) (members : List Member) : Prop where
  lists : Lists text members
  plain : Plain text
  some : members ≠ []

theorem ListsPlainly.append {front back : List Char} {members others : List Member}
    (first : ListsPlainly front members) (later : ListsPlainly back others) :
    ListsPlainly (front ++ back) (members ++ others) where
  lists := first.lists.append later.lists (Or.inr later.plain)
  plain := first.plain.append back
  some := List.append_ne_nil_of_left_ne_nil first.some others

/-- A member of a class that is not a range. -/
theorem listsPlainly_member {text : List Char} {member : Member} (plain : Plain text)
    (read : ∀ rest, member? (text ++ rest) = some (member, rest)) : ListsPlainly text [member] :=
  ⟨lists_member plain read, plain, List.cons_ne_nil _ _⟩

/-- A class with members is read as that. -/
theorem ListsPlainly.reads_class {text : List Char} {members : List Member}
    (lists : ListsPlainly text members) (isExcluded : Bool) :
    ReadsPlainly (classStart isExcluded ++ text ++ [']']) [.one ⟨isExcluded, members⟩] where
  reads := Regex.reads_class isExcluded lists.some lists.plain lists.lists
  plain := by cases isExcluded <;> exact ⟨'[', _, rfl, by decide⟩
  some := List.cons_ne_nil _ _

/-- A single character is read as that. -/
theorem readsPlainly_escapeChar (c : Char) : ReadsPlainly (escapeChar c) [.single c] :=
  ⟨reads_escapeChar c, plain_escapeChar c, List.cons_ne_nil _ _⟩

/-- The characters of the text of fragments. -/
def charsOf (textOf : String → String) (fragments : List Fragment) : List Char :=
  (FragmentTable.resolved textOf fragments).toList

section Texts

variable {textOf : String → String}

@[simp] theorem charsOf_nil : charsOf textOf [] = [] := by
  simp [charsOf, FragmentTable.resolved]

theorem charsOf_append (front back : List Fragment) :
    charsOf textOf (front ++ back) = charsOf textOf front ++ charsOf textOf back := by
  simp [charsOf, FragmentTable.resolved, String.toList_join]

theorem charsOf_text (text : String) (others : List Fragment) :
    charsOf textOf (.text text :: others) = text.toList ++ charsOf textOf others := by
  simp [charsOf, FragmentTable.resolved, FragmentTable.pieceText, String.toList_join]

theorem charsOf_single (text : String) : charsOf textOf [.text text] = text.toList := by
  rw [charsOf_text, charsOf_nil, List.append_nil]

theorem charsOf_reference (name : String) :
    charsOf textOf [.reference name] = (textOf name).toList := by
  simp [charsOf, FragmentTable.resolved, FragmentTable.pieceText]

/-! ## Glyphs -/

theorem exists_glyph {glyph : String} (accepted : Kind.glyph.accepts glyph = true) :
    ∃ c, Token.glyphCharacter? glyph = some c := by
  unfold Kind.accepts Kind.acceptsChars at accepted
  unfold Token.glyphCharacter?
  split at accepted
  case h_5 =>
    rename_i c _ spelled
    exact ⟨c, by rw [spelled]; rfl⟩
  all_goals simp_all

theorem charsOf_glyph {glyph : String} {c : Char} (quoted : Token.glyphCharacter? glyph = some c) :
    charsOf textOf (glyphFragments glyph) = escapeChar c := by
  rw [glyphFragments, quoted]
  change charsOf textOf [.text (Regex.escape (String.singleton c))] = _
  rw [charsOf_single, escape, String.toList_ofList]
  simp

/-- A right glyph is a character, a right range an ascending pair of characters. -/
theorem bounded_cases {bounded : Bounded} (sound : ∀ part ∈ bounded.parts, part.IsSound) :
    (∃ c, Token.glyphCharacter? bounded.glyph = some c ∧ bounded.extent = none) ∨
      ∃ low last high, Token.glyphCharacter? bounded.glyph = some low ∧
        bounded.extent = some last ∧ Token.glyphCharacter? last = some high ∧ low ≤ high := by
  have first : (Part.leaf .glyph bounded.glyph).IsSound := sound _ (by simp [Bounded.parts])
  have range : (Part.bounded bounded).IsSound := sound _ (by simp [Bounded.parts])
  cases extent : bounded.extent with
  | none =>
      obtain ⟨c, quoted⟩ := exists_glyph first
      exact .inl ⟨c, quoted, rfl⟩
  | some last =>
      obtain ⟨low, high, begins, ends, ascends⟩ := range last extent
      exact .inr ⟨low, last, high, begins, rfl, ends, ascends⟩

/-- Within a class. -/
theorem lists_bounded {bounded : Bounded} (sound : ∀ part ∈ bounded.parts, part.IsSound) :
    ListsPlainly (charsOf textOf bounded.rangeFragments) bounded.members := by
  rw [Bounded.rangeFragments, Bounded.members, charsOf_append]
  rcases bounded_cases sound with ⟨c, quoted, alone⟩ | ⟨low, last, high, quoted, ranges, ends, ascends⟩
  · rw [quoted, alone, charsOf_glyph quoted]
    simp only [Option.elim_none, charsOf_nil, List.append_nil]
    exact ⟨lists_single c, plain_escapeChar c, List.cons_ne_nil _ _⟩
  · rw [quoted, ranges, charsOf_glyph quoted]
    simp only [Option.elim_some, ends, Option.toList_some, List.map_singleton, charsOf_text,
      charsOf_glyph ends]
    exact ⟨lists_range ascends, (plain_escapeChar low).append _, List.cons_ne_nil _ _⟩

/-- On its own. A range makes a class. -/
theorem reads_bounded {bounded : Bounded} (sound : ∀ part ∈ bounded.parts, part.IsSound) :
    ReadsPlainly (charsOf textOf bounded.fragments) [.one ⟨false, bounded.members⟩] := by
  rw [Bounded.fragments]
  rcases bounded_cases sound with ⟨c, quoted, alone⟩ | ⟨_, last, _, _, ranges, _⟩
  · have single : bounded.members = [.single c] := by rw [Bounded.members, quoted, alone]
    have chars : charsOf textOf bounded.rangeFragments = escapeChar c := by
      rw [Bounded.rangeFragments, alone, Option.elim_none, List.append_nil, charsOf_glyph quoted]
    rw [alone, single, Option.isSome_none, if_neg Bool.false_ne_true, chars]
    exact readsPlainly_escapeChar c
  · rw [ranges, Option.isSome_some, if_pos rfl, charsOf_text, charsOf_append, charsOf_single,
      ← List.append_assoc]
    exact (lists_bounded sound).reads_class false

/-! ## Intrinsics and filters -/

/-- An accepted intrinsic has one of the six names. -/
theorem mem_of_accepts {name : String} (accepted : Kind.intrinsic.accepts name = true) :
    name ∈ intrinsicNames :=
  Kind.mem_intrinsicTexts_iff.mp (List.contains_iff_mem.mp accepted)

theorem reads_lineEnd : Reads (['\\', 'r'] ++ (['?'] ++ ['\\', 'n'])) lineEnd := by
  intro nesting rest expr later
  rw [List.append_assoc, List.append_assoc]
  refine .sign (List.cons_ne_nil '\\' ['r']) rfl rfl ?_
  refine .sign (List.cons_ne_nil '?' []) rfl rfl ?_
  exact .sign (List.cons_ne_nil '\\' ['n']) rfl rfl later

/-- What is read as one character of a class, on its own. -/
theorem readsPlainly_one {text : List Char} {set : CharClass} (plain : Plain text)
    (read : ∀ rest, sign? (text ++ rest) = some (.one set, rest)) : ReadsPlainly text [.one set] := by
  have nonempty : text ≠ [] := by
    obtain ⟨c, rest, rfl, _⟩ := plain
    exact List.cons_ne_nil c rest
  exact ⟨reads_one nonempty read, plain, List.cons_ne_nil _ _⟩

theorem reads_intrinsic {name : String} (accepted : Kind.intrinsic.accepts name = true) :
    ReadsPlainly (charsOf textOf (intrinsicFragments name false)) (intrinsicPieces name) := by
  have member := mem_of_accepts accepted
  simp only [intrinsicNames, List.mem_cons, List.not_mem_nil, or_false] at member
  rw [intrinsicFragments]
  rcases member with rfl | rfl | rfl | rfl | rfl | rfl
  all_goals
    change ReadsPlainly (charsOf textOf [.text _]) _
    rw [charsOf_single]
  case inr.inr.inr.inl => exact ⟨reads_lineEnd, ⟨'\\', _, rfl, by decide⟩, List.cons_ne_nil _ _⟩
  case inl => exact readsPlainly_one ⟨'.', _, rfl, by decide⟩ fun _ => rfl
  all_goals exact readsPlainly_one ⟨'\\', _, rfl, by decide⟩ fun _ => rfl

/-- A member of a filter. -/
theorem lists_character {character : Character} (sound : ∀ part ∈ character.parts, part.IsSound) :
    ListsPlainly (charsOf textOf character.fragments) character.members := by
  cases character with
  | bounded range => exact lists_bounded sound
  | intrinsic name =>
      have accepted : (Part.leaf .intrinsic name).IsSound := sound _ (by simp [Character.parts])
      have member := mem_of_accepts accepted
      simp only [intrinsicNames, List.mem_cons, List.not_mem_nil, or_false] at member
      rw [Character.fragments, intrinsicFragments]
      rcases member with rfl | rfl | rfl | rfl | rfl | rfl
      all_goals
        change ListsPlainly (charsOf textOf [.text _]) _
        rw [charsOf_single]
      case inl =>
        have space : ListsPlainly ['\\', 's'] [.space true] :=
          listsPlainly_member ⟨'\\', _, rfl, by decide⟩ fun _ => rfl
        have other : ListsPlainly ['\\', 'S'] [.space false] :=
          listsPlainly_member ⟨'\\', _, rfl, by decide⟩ fun _ => rfl
        exact space.append other
      all_goals exact listsPlainly_member ⟨'\\', _, rfl, by decide⟩ fun _ => rfl

theorem lists_characters {characters : List Character} (some : characters ≠ [])
    (sound : ∀ part ∈ characters.flatMap Character.parts, part.IsSound) :
    ListsPlainly (charsOf textOf (characters.flatMap Character.fragments))
      (characters.flatMap Character.members) := by
  induction characters with
  | nil => exact absurd rfl some
  | cons character others ih =>
      rw [List.flatMap_cons] at sound
      obtain ⟨first, later⟩ := List.forall_mem_append.mp sound
      rw [List.flatMap_cons, List.flatMap_cons, charsOf_append]
      cases others with
      | nil =>
          rw [List.flatMap_nil, List.flatMap_nil, charsOf_nil, List.append_nil, List.append_nil]
          exact lists_character first
      | cons next others => exact (lists_character first).append (ih (List.cons_ne_nil _ _) later)

theorem reads_filter {filter : Filter} (sound : ∀ part ∈ filter.parts, part.IsSound)
    (filled : filter.isFilled = true) :
    ReadsPlainly (charsOf textOf filter.fragments) [.one filter.charClass] := by
  have some : filter.characters ≠ [] := by simpa [Filter.isFilled] using filled
  have members : ∀ part ∈ filter.characters.flatMap Character.parts, part.IsSound := by
    intro part member
    exact sound part (List.mem_cons_of_mem _ (List.mem_append_right _ member))
  have starts : (if filter.isExcluded then "[^" else "[").toList = classStart filter.isExcluded := by
    cases filter.isExcluded <;> rfl
  rw [Filter.fragments, charsOf_text, charsOf_append, charsOf_single, starts, ← List.append_assoc]
  exact (lists_characters some members).reads_class filter.isExcluded

/-! ## Atoms -/

theorem resolveEscapes_ne_nil {text : List Char} (some : text ≠ []) :
    Token.resolveEscapes text ≠ [] := by
  unfold Token.resolveEscapes
  split
  · exact absurd rfl some
  · exact List.cons_ne_nil _ _
  · exact List.cons_ne_nil _ _

/-- An accepted literal stands for some text. -/
theorem literalText_ne_nil {literal : String} (accepted : Kind.literal.accepts literal = true) :
    (Token.literalText literal).toList ≠ [] := by
  rw [Token.literalText, String.toList_ofList]
  apply resolveEscapes_ne_nil
  unfold Kind.accepts Kind.acceptsChars at accepted
  split at accepted
  case h_7 =>
    rename_i body _ spelled
    rw [Bool.and_eq_true, bne_iff_ne] at accepted
    rw [spelled, Token.dropQuotes]
    split
    · rename_i ends
      -- The closing quote is not all that is behind the opening one.
      obtain ⟨front, rfl⟩ := List.getLast?_eq_some_iff.mp ends
      rw [List.dropLast_concat]
      rintro rfl
      exact accepted.2 rfl
    · exact List.cons_ne_nil _ _
  all_goals simp_all

theorem reads_escapeText {text : String} (some : text.toList ≠ []) :
    ReadsPlainly (escape text).toList (spelledOut text.toList) := by
  rw [escape, String.toList_ofList]
  obtain ⟨c, others, spelled⟩ := List.exists_cons_of_ne_nil some
  refine ⟨reads_escape _, ?_, ?_⟩
  · rw [spelled, List.flatMap_cons]
    exact (plain_escapeChar c).append _
  · rw [spelled]
    exact List.cons_ne_nil _ _

variable {treeOf : String → Expr}

theorem reads_atom {atom : Atom} (sound : ∀ part ∈ atom.parts, part.IsSound)
    (written : ∀ name ∈ atom.names, ReadsPlainly (textOf name).toList [treeOf name]) :
    ReadsPlainly (charsOf textOf atom.fragments) (atom.pieces treeOf) := by
  cases atom with
  | bounded range => exact reads_bounded sound
  | intrinsic name => exact reads_intrinsic (sound _ (List.mem_singleton_self _))
  | literal text =>
      rw [Atom.fragments, charsOf_single]
      exact reads_escapeText (literalText_ne_nil (sound _ (List.mem_singleton_self _)))
  | lowercase name =>
      rw [Atom.fragments, charsOf_reference]
      exact written name (List.mem_singleton_self _)

/-! ## Quantifiers -/

theorem digits_of_accepts {text : String} (accepted : Kind.number.accepts text = true) :
    text.toList ≠ [] ∧ text.toList.all Text.isDecimal = true := by
  have digits : (!text.toList.isEmpty && text.toList.all Kind.isNumeral) = true := accepted
  rw [Bool.and_eq_true, Bool.not_eq_true', List.isEmpty_eq_false_iff] at digits
  exact digits

/-- The count that digits write is their value. -/
theorem readCount_eq {text : String} {count : Nat} (accepted : Kind.number.accepts text = true)
    (reads : Text.readCount text = some count) : count = Text.decimalValue text.toList := by
  obtain ⟨some, digits⟩ := digits_of_accepts accepted
  have unsigned : Text.dropPlus text.toList = text.toList := by
    unfold Text.dropPlus
    split
    · rename_i rest signed
      rw [signed] at digits
      cases digits
    · rfl
  simp only [Text.readCount, unsigned, digits] at reads
  split at reads
  · cases reads
  · split at reads
    · exact (Option.some.inj reads).symm
    · cases reads

/-- The counts of a constraint that is right by itself ascend. -/
theorem Constraint.ascends {constraint : Constraint}
    (sound : ∀ part ∈ constraint.parts, part.IsSound) :
    ∀ maximum ∈ constraint.counts.maximum, constraint.counts.minimum ≤ maximum := by
  have isMinimum : (Part.leaf .number constraint.minimum).IsSound :=
    sound _ (by simp [Constraint.parts])
  rcases constraint with ⟨minimum, limit⟩
  rcases limit with _ | ⟨_ | maximum⟩
  · rintro _ ⟨⟩
    exact Nat.le_refl _
  · rintro _ ⟨⟩
  · rintro _ ⟨⟩
    have isMaximum : (Part.leaf .number maximum).IsSound :=
      sound _ (by simp [Constraint.parts, Part.leaf?])
    have ascends : (Part.constraint ⟨minimum, some ⟨some maximum⟩⟩).IsSound :=
      sound _ (by simp [Constraint.parts])
    obtain ⟨low, high, isLow, isHigh, ordered⟩ := ascends maximum rfl
    rwa [readCount_eq isMinimum isLow, readCount_eq isMaximum isHigh] at ordered

theorem Cardinality.ascends {cardinality : Cardinality}
    (sound : ∀ part ∈ cardinality.parts, part.IsSound) :
    ∀ maximum ∈ cardinality.counts.maximum, cardinality.counts.minimum ≤ maximum := by
  cases cardinality with
  | constrained constraint => exact constraint.ascends sound
  | quantified mark =>
      rw [Cardinality.counts]
      split
      · exact fun maximum _ => Nat.zero_le maximum
      · split <;> nofun

theorem isQuantifier_constraint {constraint : Constraint}
    (sound : ∀ part ∈ constraint.parts, part.IsSound) :
    IsQuantifier (Analyzer.quantifier constraint).toList constraint.counts := by
  have isMinimum : (Part.leaf .number constraint.minimum).IsSound :=
    sound _ (by simp [Constraint.parts])
  obtain ⟨someMinimum, minimumDigits⟩ := digits_of_accepts isMinimum
  have ascends := constraint.ascends sound
  rcases constraint with ⟨minimum, limit⟩
  rcases limit with _ | ⟨_ | maximum⟩
  · have quantifier := isQuantifier_exactly someMinimum minimumDigits
    simpa [Analyzer.quantifier, countQuantifier, Constraint.counts] using quantifier
  · have quantifier := isQuantifier_from someMinimum minimumDigits
    simpa [Analyzer.quantifier, countQuantifier, Constraint.counts] using quantifier
  · have isMaximum : (Part.leaf .number maximum).IsSound :=
      sound _ (by simp [Constraint.parts, Part.leaf?])
    obtain ⟨someMaximum, maximumDigits⟩ := digits_of_accepts isMaximum
    have quantifier := isQuantifier_between someMinimum minimumDigits someMaximum maximumDigits
      (ascends _ rfl)
    simpa [Analyzer.quantifier, countQuantifier, Constraint.counts] using quantifier

theorem isQuantifier_cardinality {cardinality : Cardinality}
    (sound : ∀ part ∈ cardinality.parts, part.IsSound) :
    IsQuantifier cardinality.quantifier.toList cardinality.counts := by
  cases cardinality with
  | constrained constraint => exact isQuantifier_constraint sound
  | quantified mark =>
      have accepted : (Part.leaf .quantified mark).IsSound := sound _ (List.mem_singleton_self _)
      have marks : (mark.toList == ['?'] || mark.toList == ['*'] || mark.toList == ['+']) = true :=
        accepted
      simp only [Bool.or_eq_true, beq_iff_eq] at marks
      rw [Cardinality.quantifier, Cardinality.counts]
      rcases marks with (isMark | isMark) | isMark
      · obtain rfl : mark = "?" := String.toList_inj.mp isMark
        exact isQuantifier_optional
      · obtain rfl : mark = "*" := String.toList_inj.mp isMark
        exact isQuantifier_any
      · obtain rfl : mark = "+" := String.toList_inj.mp isMark
        exact isQuantifier_some

/-! ## Patterns -/

/-- The text is read as the pieces unless a question mark follows, and begins plainly. -/
structure ReadsOpenly (text : List Char) (pieces : List Expr) : Prop where
  reads : ReadsUnmarked text pieces
  plain : Plain text

/-- What completes a group is read as a piece within its brackets. -/
theorem readsPlainly_grouped {fragments : List Fragment} {tree : Expr}
    (completes : Completes none (charsOf textOf fragments) tree) :
    ReadsPlainly (charsOf textOf (.text groupStart :: (fragments ++ [Fragment.text ")"])))
      [tree] := by
  have reads := reads_grouped completes
  rw [charsOf_text, charsOf_append, charsOf_single]
  rw [grouped, List.append_assoc] at reads
  exact ⟨reads, ⟨'(', _, rfl, by decide⟩, List.cons_ne_nil _ _⟩

/-- An element with its quantifier, be it a lazy one or not. -/
theorem ReadsPlainly.repeated {text : List Char} {pieces : List Expr}
    (reads : ReadsPlainly text pieces) {cardinality : Option Cardinality}
    (sound : ∀ part ∈ Cardinality.parts? cardinality, part.IsSound) (isLazy : Bool) :
    ReadsOpenly (text ++ charsOf textOf (quantifierFragments cardinality isLazy))
      (repeatedPieces cardinality pieces) := by
  refine ⟨?_, reads.plain.append _⟩
  cases cardinality with
  | none =>
      change ReadsUnmarked (text ++ charsOf textOf []) pieces
      rw [charsOf_nil, List.append_nil]
      exact reads.reads.unmarked
  | some cardinality =>
      have quantified := reads.reads.quantify reads.some (isQuantifier_cardinality sound) isLazy
      change ReadsUnmarked (text ++ charsOf textOf
        (.text cardinality.quantifier :: if isLazy then [.text "?"] else [])) _
      rw [charsOf_text]
      cases isLazy with
      | false =>
          rw [if_neg Bool.false_ne_true, charsOf_nil]
          exact quantified
      | true =>
          rw [if_pos rfl, charsOf_single]
          exact quantified

mutual

/-- A pattern completes its group. -/
theorem completes_pattern : (pattern : Pattern) → (∀ part ∈ pattern.parts, part.IsSound) →
    pattern.isFilled = true →
    (∀ name ∈ pattern.names, ReadsPlainly (textOf name).toList [treeOf name]) →
    Completes none (charsOf textOf pattern.fragments) (pattern.tree treeOf)
  | .mk first alternatives, sound, filled, written => by
    obtain ⟨soundFirst, soundOthers⟩ := List.forall_mem_append.mp sound
    obtain ⟨writtenFirst, writtenOthers⟩ := List.forall_mem_append.mp written
    obtain ⟨filledFirst, filledOthers⟩ := Bool.and_eq_true_iff.mp filled
    rw [Pattern.fragments, charsOf_append, Pattern.tree]
    have start := reads_sequence first soundFirst filledFirst writtenFirst
    exact completes_alternatives alternatives soundOthers filledOthers writtenOthers
      (start.completes none)

/-- Alternatives complete the group behind what has been read of it. -/
theorem completes_alternatives {text : List Char} {tree : Expr} : (alternatives : List Sequence) →
    (∀ part ∈ Sequence.listParts alternatives, part.IsSound) →
    Sequence.allFilled alternatives = true →
    (∀ name ∈ Sequence.listNames alternatives,
      ReadsPlainly (textOf name).toList [treeOf name]) →
    Completes none text tree →
    Completes none (text ++ charsOf textOf (Sequence.alternativeFragments alternatives))
      (Sequence.choiceTree treeOf alternatives tree)
  | [], _, _, _, before => by
    rw [Sequence.alternativeFragments, charsOf_nil, List.append_nil]
    exact before
  | sequence :: others, sound, filled, written, before => by
    obtain ⟨soundFirst, soundOthers⟩ := List.forall_mem_append.mp sound
    obtain ⟨writtenFirst, writtenOthers⟩ := List.forall_mem_append.mp written
    obtain ⟨filledFirst, filledOthers⟩ := Bool.and_eq_true_iff.mp filled
    have reads := reads_sequence sequence soundFirst filledFirst writtenFirst
    have joined := before.bar (reads.completes (some tree))
    have whole := completes_alternatives others soundOthers filledOthers writtenOthers joined
    rw [List.append_assoc, List.cons_append] at whole
    rw [Sequence.alternativeFragments, charsOf_text, charsOf_append]
    exact whole

theorem reads_sequence : (sequence : Sequence) → (∀ part ∈ sequence.parts, part.IsSound) →
    sequence.isFilled = true →
    (∀ name ∈ sequence.names, ReadsPlainly (textOf name).toList [treeOf name]) →
    ReadsUnmarked (charsOf textOf sequence.fragments) (sequence.pieces treeOf)
  | .mk repetitions, sound, filled, written =>
    (reads_row repetitions sound (Bool.and_eq_true_iff.mp filled).2 written).1

/-- Repetitions in a row, which do not begin with a question mark. -/
theorem reads_row : (repetitions : List Repetition) →
    (∀ part ∈ Repetition.listParts repetitions, part.IsSound) →
    Repetition.allFilled repetitions = true →
    (∀ name ∈ Repetition.listNames repetitions,
      ReadsPlainly (textOf name).toList [treeOf name]) →
    ReadsUnmarked (charsOf textOf (Repetition.rowFragments repetitions))
        (Repetition.rowPieces treeOf repetitions) ∧
      Unmarked (charsOf textOf (Repetition.rowFragments repetitions))
  | [], _, _, _ => by
    rw [Repetition.rowFragments, charsOf_nil]
    exact ⟨reads_nil.unmarked, nofun⟩
  | repetition :: others, sound, filled, written => by
    obtain ⟨soundFirst, soundOthers⟩ := List.forall_mem_append.mp sound
    obtain ⟨writtenFirst, writtenOthers⟩ := List.forall_mem_append.mp written
    obtain ⟨filledFirst, filledOthers⟩ := Bool.and_eq_true_iff.mp filled
    obtain ⟨reads, plain⟩ := reads_repetition repetition soundFirst filledFirst writtenFirst
    obtain ⟨later, unmarked⟩ := reads_row others soundOthers filledOthers writtenOthers
    rw [Repetition.rowFragments, charsOf_append]
    exact ⟨reads.append unmarked later, (plain.append _).unmarked⟩

theorem reads_repetition : (repetition : Repetition) →
    (∀ part ∈ repetition.parts, part.IsSound) → repetition.isFilled = true →
    (∀ name ∈ repetition.names, ReadsPlainly (textOf name).toList [treeOf name]) →
    ReadsOpenly (charsOf textOf repetition.fragments) (repetition.pieces treeOf)
  | .mk element cardinality, sound, filled, written => by
    obtain ⟨soundElement, soundCardinality⟩ := List.forall_mem_append.mp sound
    rw [Repetition.fragments, charsOf_append]
    exact (reads_element element soundElement filled written).repeated soundCardinality _

theorem reads_element : (element : Element) → (∀ part ∈ element.parts, part.IsSound) →
    element.isFilled = true →
    (∀ name ∈ element.names, ReadsPlainly (textOf name).toList [treeOf name]) →
    ReadsPlainly (charsOf textOf element.fragments) (element.pieces treeOf)
  | .group pattern, sound, filled, written => by
    rw [Element.fragments]
    exact readsPlainly_grouped (completes_pattern pattern sound filled written)
  | .filter filter, sound, filled, _ => reads_filter sound filled
  | .atom atom, sound, _, written => reads_atom sound written

end

end Texts

end GrammarBook
