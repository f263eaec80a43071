import GrammarBook.Proofs.Layout.Survival
import GrammarBook.Proofs.Validation.Parts

namespace GrammarBook

/-!
# Phrases that some source writes

A phrase is written by some source exactly if its leaves are well spelled and no list is empty that
the grammar wants to have a member. Both can be read off the phrase.
-/

/-! ## Lists that must not be empty -/

mutual

/-- Brackets contain terms. -/
def Term.isFilled : Term → Bool
  | .bracket terms _ => !terms.isEmpty && Term.allFilled terms
  | .reference _ | .literal _ => true

def Term.allFilled : List Term → Bool
  | [] => true
  | term :: others => term.isFilled && Term.allFilled others

end

/-- There are lines or terms. -/
def Definition.isFilled : Definition → Bool
  | multiline lines => !lines.isEmpty
  | inlined terms _ => !terms.isEmpty && Term.allFilled terms

/-- There are characters in the filter. -/
def Filter.isFilled (filter : Filter) : Bool := !filter.characters.isEmpty

mutual

def Pattern.isFilled : Pattern → Bool
  | .mk first alternatives => first.isFilled && Sequence.allFilled alternatives

def Sequence.allFilled : List Sequence → Bool
  | [] => true
  | sequence :: others => sequence.isFilled && Sequence.allFilled others

/-- There are repetitions in the sequence. -/
def Sequence.isFilled : Sequence → Bool
  | .mk repetitions => !repetitions.isEmpty && Repetition.allFilled repetitions

def Repetition.allFilled : List Repetition → Bool
  | [] => true
  | repetition :: others => repetition.isFilled && Repetition.allFilled others

def Repetition.isFilled : Repetition → Bool
  | .mk element _ => element.isFilled

def Element.isFilled : Element → Bool
  | .group pattern => pattern.isFilled
  | .filter filter => filter.isFilled
  | .atom _ => true

end

/-- Every list that the grammar wants to have a member has one. -/
def Document.isFilled (document : Document) : Bool :=
  !document.rules.isEmpty && document.rules.all (·.definition.isFilled) &&
    (!document.expressions.isEmpty && document.expressions.all (·.pattern.isFilled))

/-! ## Leaves that are well spelled -/

/-- All leaves among the parts are well spelled. -/
def Spelled (parts : List Part) : Prop :=
  ∀ kind text, .leaf kind text ∈ parts → kind.IsSpelled text.toList

theorem spelled_nil : Spelled [] := fun _ _ absent => absurd absent List.not_mem_nil

theorem spelled_append_iff {front back : List Part} :
    Spelled (front ++ back) ↔ Spelled front ∧ Spelled back := by
  simp only [Spelled, List.mem_append, or_imp, forall_and]

theorem spelled_leaf_iff {kind : Kind} {text : String} :
    Spelled [.leaf kind text] ↔ kind.IsSpelled text.toList := by
  simp [Spelled]

theorem spelled_leaf_cons_iff {kind : Kind} {text : String} {parts : List Part} :
    Spelled (.leaf kind text :: parts) ↔ kind.IsSpelled text.toList ∧ Spelled parts := by
  rw [← List.singleton_append, spelled_append_iff, spelled_leaf_iff]

/-- Parts that are no leaves do not matter. -/
theorem spelled_cons_iff {part : Part} {parts : List Part} (other : ∀ kind text, part ≠ .leaf kind text) :
    Spelled (part :: parts) ↔ Spelled parts := by
  have same (kind : Kind) (text : String) :
      .leaf kind text ∈ part :: parts ↔ .leaf kind text ∈ parts := by
    rw [List.mem_cons, or_iff_right fun same => other kind text same.symm]
  simp only [Spelled, same]

theorem spelled_flatMap_iff {α : Type} {members : List α} {parts : α → List Part} :
    Spelled (members.flatMap parts) ↔ ∀ member ∈ members, Spelled (parts member) := by
  simp only [Spelled, List.mem_flatMap]
  grind

namespace Grammar

open Token

/-! ## Forms -/

section Forms

variable {production : Production} {first rest left right inner : Form}

theorem isWritable_token_iff {kind : Kind} {text : String} :
    IsWritable (.token kind) text ↔ kind.IsSpelled text.toList := by
  constructor
  · rintro ⟨derivation, rfl, spelled⟩
    match derivation with
    | .token leaf fits => exact fits ▸ spelled leaf List.mem_cons_self
  · intro spelled
    refine ⟨.token ⟨kind, text, .start⟩ rfl, rfl, fun token member => ?_⟩
    rw [List.mem_singleton.mp member]
    exact spelled

theorem isWritable_mark (text : String) (known : Kind.delimiter.accepts text = true) :
    IsWritable (.mark text) text := by
  refine ⟨.mark ⟨.delimiter, text, .start⟩ ⟨rfl, rfl⟩, rfl, fun token member => ?_⟩
  rw [List.mem_singleton.mp member]
  exact ⟨known, nofun⟩

theorem isWritable_bullet : IsWritable .bullet () := by
  refine ⟨.bullet ⟨.newline, "\n", .start⟩ ⟨.delimiter, "-", .start⟩ rfl ⟨rfl, rfl⟩, rfl, ?_⟩
  intro token member
  rcases List.mem_cons.mp member with rfl | isDash
  · exact ⟨rfl, nofun⟩
  · rw [List.mem_singleton.mp isDash]
    exact ⟨rfl, nofun⟩

theorem isWritable_empty : IsWritable .empty () :=
  ⟨.empty, rfl, fun _ absent => absurd absent List.not_mem_nil⟩

theorem IsWritable.ofParts {parts : (form production).Meaning}
    (writable : IsWritable (form production) parts) :
    IsWritable (.part production) (build production parts) := by
  obtain ⟨derivation, rfl, spelled⟩ := writable
  exact ⟨.part derivation, rfl, spelled⟩

theorem IsWritable.beside {front : first.Meaning} {back : rest.Meaning}
    (writable : IsWritable first front) (others : IsWritable rest back) :
    IsWritable (.next first rest) (front, back) := by
  obtain ⟨one, rfl, spelledFront⟩ := writable
  obtain ⟨other, rfl, spelledBack⟩ := others
  exact ⟨.next one other, rfl, List.forall_mem_append.mpr ⟨spelledFront, spelledBack⟩⟩

/-- A phrase is written part by part, if it can have been made of no other parts. -/
theorem isWritable_part_iff (production : Production) (parts : (form production).Meaning)
    (alone : ∀ others, build production others = build production parts → others = parts) :
    IsWritable (.part production) (build production parts) ↔ IsWritable (form production) parts := by
  refine ⟨fun writable => ?_, IsWritable.ofParts⟩
  obtain ⟨others, same, writable⟩ := writable.part
  exact alone others same ▸ writable

theorem isWritable_left_iff {value : left.Meaning} :
    IsWritable (.either left right) (.inl value) ↔ IsWritable left value := by
  refine ⟨IsWritable.left, ?_⟩
  rintro ⟨derivation, rfl, spelled⟩
  exact ⟨.left derivation, rfl, spelled⟩

theorem isWritable_right_iff {value : right.Meaning} :
    IsWritable (.either left right) (.inr value) ↔ IsWritable right value := by
  refine ⟨IsWritable.right, ?_⟩
  rintro ⟨derivation, rfl, spelled⟩
  exact ⟨.right derivation, rfl, spelled⟩

theorem isWritable_absent : IsWritable (.optional inner) none :=
  ⟨.absent, rfl, fun _ absent => absurd absent List.not_mem_nil⟩

theorem IsWritable.given {value : inner.Meaning} (writable : IsWritable inner value) :
    IsWritable (.optional inner) (some value) := by
  obtain ⟨derivation, rfl, spelled⟩ := writable
  exact ⟨.present derivation, rfl, spelled⟩

theorem isWritable_many_iff {members : List inner.Meaning} :
    IsWritable (.many inner) members ↔ ∀ member ∈ members, IsWritable inner member := by
  refine ⟨IsWritable.many, fun all => ?_⟩
  induction members with
  | nil => exact ⟨.done, rfl, fun _ absent => absurd absent List.not_mem_nil⟩
  | cons member members ih =>
      obtain ⟨⟨one, rfl, spelledFirst⟩, others⟩ := List.forall_mem_cons.mp all
      obtain ⟨rest, rfl, spelledOthers⟩ := ih others
      exact ⟨.more one rest, rfl, List.forall_mem_append.mpr ⟨spelledFirst, spelledOthers⟩⟩

theorem isWritable_several_iff {members : List inner.Meaning} :
    IsWritable (.several inner) members ↔
      members ≠ [] ∧ ∀ member ∈ members, IsWritable inner member := by
  refine ⟨IsWritable.several, ?_⟩
  rintro ⟨some, all⟩
  obtain ⟨member, members, rfl⟩ := List.exists_cons_of_ne_nil some
  obtain ⟨⟨one, rfl, spelledFirst⟩, others⟩ := List.forall_mem_cons.mp all
  obtain ⟨rest, rfl, spelledOthers⟩ := isWritable_many_iff.mpr others
  exact ⟨.several one rest, rfl, List.forall_mem_append.mpr ⟨spelledFirst, spelledOthers⟩⟩

theorem isWritable_token?_iff {kind : Kind} {text : Option String} :
    IsWritable (.optional (.token kind)) text ↔ Spelled (Part.leaf? kind text) := by
  cases text with
  | none => exact iff_of_true isWritable_absent spelled_nil
  | some text =>
      exact ⟨fun writable => spelled_leaf_iff.mpr (isWritable_token_iff.mp writable.present),
        fun spelled => (isWritable_token_iff.mpr (spelled_leaf_iff.mp spelled)).given⟩

end Forms

/-! ## Phrases -/

theorem isWritable_limit_iff {limit : Limit} :
    IsWritable (.part .limit) limit ↔ Spelled (Part.leaf? .number limit.maximum) := by
  rw [← isWritable_token?_iff]
  constructor
  · intro writable
    obtain ⟨⟨_, maximum, _⟩, rfl, row⟩ := writable.part
    exact row.next.2.next.1
  · intro maximum
    have row : IsWritable (form .limit) ("..", limit.maximum, ()) :=
      (isWritable_mark ".." (by decide)).beside (maximum.beside isWritable_empty)
    exact row.ofParts

theorem isWritable_constraint_iff {constraint : Constraint} :
    IsWritable (.part .constrained) constraint ↔ Spelled constraint.parts := by
  have limit : IsWritable (.optional (.part .limit)) constraint.limit ↔
      Spelled (Part.leaf? .number (constraint.limit.bind (·.maximum))) := by
    cases constraint.limit with
    | none => exact iff_of_true isWritable_absent spelled_nil
    | some limit =>
        exact ⟨fun writable => isWritable_limit_iff.mp writable.present,
          fun spelled => (isWritable_limit_iff.mpr spelled).given⟩
  have parts : Spelled constraint.parts ↔
      IsWritable (.token .number) constraint.minimum ∧
        IsWritable (.optional (.part .limit)) constraint.limit := by
    rw [Constraint.parts, spelled_cons_iff (by simp), spelled_leaf_cons_iff, isWritable_token_iff, limit]
  rw [parts]
  constructor
  · intro writable
    obtain ⟨⟨_, minimum, limit, _, _⟩, rfl, row⟩ := writable.part
    exact ⟨row.next.2.next.1, row.next.2.next.2.next.1⟩
  · rintro ⟨minimum, limit⟩
    have row : IsWritable (form .constrained)
        ("\x7b", constraint.minimum, constraint.limit, "\x7d", ()) :=
      (isWritable_mark "\x7b" (by decide)).beside (minimum.beside (limit.beside
        ((isWritable_mark "\x7d" (by decide)).beside isWritable_empty)))
    exact row.ofParts

theorem isWritable_cardinality_iff {cardinality : Cardinality} :
    IsWritable (.part .cardinality) cardinality ↔ Spelled cardinality.parts := by
  cases cardinality with
  | constrained constraint =>
      have choice : IsWritable (.part .cardinality) (.constrained constraint) ↔
          IsWritable (.part .constrained) constraint :=
        (isWritable_part_iff .cardinality (.inl constraint)
          (by rintro (_ | _) ⟨⟩; rfl)).trans isWritable_left_iff
      exact choice.trans isWritable_constraint_iff
  | quantified sign =>
      have choice : IsWritable (.part .cardinality) (.quantified sign) ↔
          IsWritable (.token .quantified) sign :=
        (isWritable_part_iff .cardinality (.inr sign)
          (by rintro (_ | _) ⟨⟩; rfl)).trans isWritable_right_iff
      rw [choice, isWritable_token_iff, Cardinality.parts, spelled_leaf_iff]

theorem isWritable_cardinality?_iff {cardinality : Option Cardinality} :
    IsWritable (.optional (.part .cardinality)) cardinality ↔
      Spelled (Cardinality.parts? cardinality) := by
  cases cardinality with
  | none => exact iff_of_true isWritable_absent spelled_nil
  | some cardinality =>
      exact ⟨fun writable => isWritable_cardinality_iff.mp writable.present,
        fun spelled => (isWritable_cardinality_iff.mpr spelled).given⟩

theorem isWritable_identifier_iff {identifier : Identifier} :
    IsWritable (.part .identifier) identifier ↔ Spelled identifier.parts := by
  cases identifier with
  | lower name =>
      have choice : IsWritable (.part .identifier) (.lower name) ↔
          IsWritable (.token .lowercase) name :=
        (isWritable_part_iff .identifier (.inl name)
          (by rintro (_ | _) ⟨⟩; rfl)).trans isWritable_left_iff
      rw [choice, isWritable_token_iff, Identifier.parts, spelled_cons_iff (by simp),
        spelled_leaf_iff]
  | upper name =>
      have choice : IsWritable (.part .identifier) (.upper name) ↔
          IsWritable (.token .uppercase) name :=
        (isWritable_part_iff .identifier (.inr name)
          (by rintro (_ | _) ⟨⟩; rfl)).trans isWritable_right_iff
      rw [choice, isWritable_token_iff, Identifier.parts, spelled_cons_iff (by simp),
        spelled_leaf_iff]

theorem isWritable_reference_iff {reference : Reference} :
    IsWritable (.part .reference) reference ↔ Spelled reference.parts := by
  rw [Reference.parts, spelled_append_iff, ← isWritable_identifier_iff,
    ← isWritable_cardinality?_iff]
  constructor
  · intro writable
    obtain ⟨⟨identifier, cardinality, _⟩, rfl, row⟩ := writable.part
    exact ⟨row.next.1, row.next.2.next.1⟩
  · rintro ⟨identifier, cardinality⟩
    have row : IsWritable (form .reference) (reference.identifier, reference.cardinality, ()) :=
      identifier.beside (cardinality.beside isWritable_empty)
    exact row.ofParts

/-! ### Terms -/

theorem isWritable_bracket_iff {terms : List Term} {cardinality : Option Cardinality} :
    IsWritable (.part .bracket) (.bracket terms cardinality) ↔
      (terms ≠ [] ∧ ∀ term ∈ terms, IsWritable (.part .term) term) ∧
        Spelled (Cardinality.parts? cardinality) := by
  rw [← isWritable_cardinality?_iff]
  constructor
  · intro writable
    obtain ⟨⟨_, terms, _, cardinality, _⟩, ⟨⟩, row⟩ := writable.part
    have behindTerms := row.next.2.next
    exact ⟨behindTerms.1.several, behindTerms.2.next.2.next.1⟩
  · rintro ⟨members, cardinality⟩
    have row : IsWritable (form .bracket) ("(", terms, ")", _, ()) :=
      (isWritable_mark "(" (by decide)).beside ((isWritable_several_iff.mpr members).beside
        ((isWritable_mark ")" (by decide)).beside (cardinality.beside isWritable_empty)))
    exact row.ofParts

theorem isWritable_referenceTerm_iff {reference : Reference} :
    IsWritable (.part .term) (.reference reference) ↔ Spelled reference.parts := by
  rw [← isWritable_reference_iff]
  constructor
  · intro writable
    obtain ⟨reference | bracket | text, same, row⟩ := writable.part
    · cases same
      exact row.left
    · obtain ⟨_, rfl, _⟩ := row.right.left.part
      cases same
    · cases same
  · intro inner
    have row : IsWritable (form .term) (.inl reference) := isWritable_left_iff.mpr inner
    exact row.ofParts

theorem isWritable_bracketTerm_iff {terms : List Term} {cardinality : Option Cardinality} :
    IsWritable (.part .term) (.bracket terms cardinality) ↔
      (terms ≠ [] ∧ ∀ term ∈ terms, IsWritable (.part .term) term) ∧
        Spelled (Cardinality.parts? cardinality) := by
  rw [← isWritable_bracket_iff]
  constructor
  · intro writable
    obtain ⟨reference | bracket | text, same, row⟩ := writable.part
    · cases same
    · cases same
      exact row.right.left
    · cases same
  · intro inner
    have row : IsWritable (form .term) (.inr (.inl (.bracket terms cardinality))) :=
      isWritable_right_iff.mpr (isWritable_left_iff.mpr inner)
    exact row.ofParts

theorem isWritable_literalTerm_iff {text : String} :
    IsWritable (.part .term) (.literal text) ↔ Spelled [.leaf .literal text] := by
  rw [spelled_leaf_iff, ← isWritable_token_iff]
  constructor
  · intro writable
    obtain ⟨reference | bracket | text, same, row⟩ := writable.part
    · cases same
    · obtain ⟨_, rfl, _⟩ := row.right.left.part
      cases same
    · cases same
      exact row.right.right
  · intro inner
    have row : IsWritable (form .term) (.inr (.inr text)) :=
      isWritable_right_iff.mpr (isWritable_right_iff.mpr inner)
    exact row.ofParts

mutual

theorem isWritable_term_iff : (term : Term) →
    (IsWritable (.part .term) term ↔ term.isFilled = true ∧ Spelled term.parts)
  | .reference reference => isWritable_referenceTerm_iff.trans (and_iff_right rfl).symm
  | .bracket terms cardinality => by
      rw [isWritable_bracketTerm_iff, isWritable_terms_iff terms, Term.isFilled, Term.parts,
        spelled_append_iff]
      simp [and_assoc]
  | .literal text => isWritable_literalTerm_iff.trans (and_iff_right rfl).symm

theorem isWritable_terms_iff : (terms : List Term) →
    ((∀ term ∈ terms, IsWritable (.part .term) term) ↔
      Term.allFilled terms = true ∧ Spelled (Term.listParts terms))
  | [] => iff_of_true (fun _ absent => absurd absent List.not_mem_nil) ⟨rfl, spelled_nil⟩
  | term :: others => by
      refine (List.forall_mem_cons.trans
        (and_congr (isWritable_term_iff term) (isWritable_terms_iff others))).trans ?_
      rw [Term.allFilled, Term.listParts, Bool.and_eq_true, spelled_append_iff]
      exact and_and_and_comm

end

/-! ### Rules -/

theorem isWritable_line_iff {line : Line} :
    IsWritable (.part .line) line ↔ Spelled line.parts := by
  rw [Line.parts, spelled_append_iff, ← isWritable_identifier_iff, ← isWritable_token?_iff]
  constructor
  · intro writable
    obtain ⟨⟨_, identifier, note, _⟩, rfl, row⟩ := writable.part
    exact ⟨row.next.2.next.1, row.next.2.next.2.next.1⟩
  · rintro ⟨identifier, note⟩
    have row : IsWritable (form .line) ((), line.identifier, line.note, ()) :=
      isWritable_bullet.beside (identifier.beside (note.beside isWritable_empty))
    exact row.ofParts

theorem isWritable_multiline_iff {lines : List Line} :
    IsWritable (.part .multiline) lines ↔ lines ≠ [] ∧ Spelled (lines.flatMap Line.parts) := by
  have members : IsWritable (.several (.part .line)) lines ↔
      lines ≠ [] ∧ Spelled (lines.flatMap Line.parts) := by
    rw [spelled_flatMap_iff]
    exact isWritable_several_iff.trans
      (and_congr_right' (forall₂_congr fun line _ => isWritable_line_iff))
  rw [← members]
  constructor
  · intro writable
    obtain ⟨⟨lines, _⟩, rfl, row⟩ := writable.part
    exact row.next.1
  · intro inner
    have row : IsWritable (form .multiline) (lines, ()) := inner.beside isWritable_empty
    exact row.ofParts

theorem isWritable_inlined_iff {terms : List Term} {note : Option String} :
    IsWritable (.part .inlined) (.inlined terms note) ↔
      (terms ≠ [] ∧ Term.allFilled terms = true ∧ Spelled (Term.listParts terms)) ∧
        Spelled (Part.leaf? .note note) := by
  have members : IsWritable (.several (.part .term)) terms ↔
      terms ≠ [] ∧ Term.allFilled terms = true ∧ Spelled (Term.listParts terms) :=
    isWritable_several_iff.trans (and_congr_right' (isWritable_terms_iff terms))
  rw [← members, ← isWritable_token?_iff]
  constructor
  · intro writable
    obtain ⟨⟨terms, note, _⟩, ⟨⟩, row⟩ := writable.part
    exact ⟨row.next.1, row.next.2.next.1⟩
  · rintro ⟨terms, note⟩
    have row : IsWritable (form .inlined) (_, _, ()) := terms.beside (note.beside isWritable_empty)
    exact row.ofParts

theorem isWritable_definition_iff {definition : Definition} :
    IsWritable (.part .definition) definition ↔
      definition.isFilled = true ∧ Spelled definition.parts := by
  cases definition with
  | multiline lines =>
      have choice : IsWritable (.part .definition) (.multiline lines) ↔
          IsWritable (.part .multiline) lines := by
        constructor
        · intro writable
          obtain ⟨lines | inlined, same, row⟩ := writable.part
          · cases same
            exact row.left
          · obtain ⟨⟨_, _, _⟩, rfl, _⟩ := row.right.part
            cases same
        · intro inner
          have row : IsWritable (form .definition) (.inl lines) := isWritable_left_iff.mpr inner
          exact row.ofParts
      rw [choice, isWritable_multiline_iff, Definition.isFilled, Definition.parts]
      simp
  | inlined terms note =>
      have choice : IsWritable (.part .definition) (.inlined terms note) ↔
          IsWritable (.part .inlined) (.inlined terms note) := by
        constructor
        · intro writable
          obtain ⟨lines | inlined, same, row⟩ := writable.part
          · cases same
          · cases same
            exact row.right
        · intro inner
          have row : IsWritable (form .definition) (.inr (.inlined terms note)) :=
            isWritable_right_iff.mpr inner
          exact row.ofParts
      rw [choice, isWritable_inlined_iff, Definition.isFilled, Definition.parts,
        spelled_append_iff]
      simp [and_assoc]

/-- Newlines end a rule or an expression; any number of them does. -/
theorem isWritable_newlines : IsWritable (.several (.token .newline)) ["\n"] :=
  isWritable_several_iff.mpr ⟨List.cons_ne_nil _ _, fun newline member => by
    rw [List.mem_singleton.mp member]
    exact isWritable_token_iff.mpr ⟨rfl, nofun⟩⟩

theorem isWritable_rule_iff {rule : Rule} :
    IsWritable (.part .rule) rule ↔ rule.definition.isFilled = true ∧ Spelled rule.parts := by
  rw [Rule.parts, spelled_leaf_cons_iff, and_left_comm,
    ← isWritable_definition_iff, ← isWritable_token_iff]
  constructor
  · intro writable
    obtain ⟨⟨name, _, definition, _, _⟩, rfl, row⟩ := writable.part
    exact ⟨row.next.1, row.next.2.next.2.next.1⟩
  · rintro ⟨name, definition⟩
    have row : IsWritable (form .rule) (rule.name, ":", rule.definition, ["\n"], ()) :=
      name.beside ((isWritable_mark ":" (by decide)).beside
        (definition.beside (isWritable_newlines.beside isWritable_empty)))
    exact row.ofParts

/-! ### Patterns -/

theorem isWritable_extent_iff {glyph : String} :
    IsWritable (.part .extent) glyph ↔ Kind.glyph.IsSpelled glyph.toList := by
  rw [← isWritable_token_iff]
  constructor
  · intro writable
    obtain ⟨⟨_, glyph, _⟩, rfl, row⟩ := writable.part
    exact row.next.2.next.1
  · intro leaf
    have row : IsWritable (form .extent) ("..", glyph, ()) :=
      (isWritable_mark ".." (by decide)).beside (leaf.beside isWritable_empty)
    exact row.ofParts

theorem isWritable_bounded_iff {bounded : Bounded} :
    IsWritable (.part .bounded) bounded ↔ Spelled bounded.parts := by
  have extent : IsWritable (.optional (.part .extent)) bounded.extent ↔
      Spelled (Part.leaf? .glyph bounded.extent) := by
    cases bounded.extent with
    | none => exact iff_of_true isWritable_absent spelled_nil
    | some last =>
        exact ⟨fun writable => spelled_leaf_iff.mpr (isWritable_extent_iff.mp writable.present),
          fun spelled => (isWritable_extent_iff.mpr (spelled_leaf_iff.mp spelled)).given⟩
  rw [Bounded.parts, spelled_cons_iff (by simp), spelled_leaf_cons_iff, ← isWritable_token_iff, ← extent]
  constructor
  · intro writable
    obtain ⟨⟨glyph, extent, _⟩, rfl, row⟩ := writable.part
    exact ⟨row.next.1, row.next.2.next.1⟩
  · rintro ⟨glyph, extent⟩
    have row : IsWritable (form .bounded) (bounded.glyph, bounded.extent, ()) :=
      glyph.beside (extent.beside isWritable_empty)
    exact row.ofParts

theorem isWritable_character_iff {character : Character} :
    IsWritable (.part .character) character ↔ Spelled character.parts := by
  cases character with
  | bounded range =>
      have choice : IsWritable (.part .character) (.bounded range) ↔
          IsWritable (.part .bounded) range :=
        (isWritable_part_iff .character (.inl range)
          (by rintro (_ | _) ⟨⟩; rfl)).trans isWritable_left_iff
      exact choice.trans isWritable_bounded_iff
  | intrinsic name =>
      have choice : IsWritable (.part .character) (.intrinsic name) ↔
          IsWritable (.token .intrinsic) name :=
        (isWritable_part_iff .character (.inr name)
          (by rintro (_ | _) ⟨⟩; rfl)).trans isWritable_right_iff
      rw [choice, isWritable_token_iff, Character.parts, spelled_leaf_iff]

theorem isWritable_filter_iff {filter : Filter} :
    IsWritable (.part .filter) filter ↔ filter.isFilled = true ∧ Spelled filter.parts := by
  have characters : IsWritable (.several (.part .character)) filter.characters ↔
      filter.isFilled = true ∧ Spelled (filter.characters.flatMap Character.parts) := by
    have some : filter.characters ≠ [] ↔ filter.isFilled = true := by simp [Filter.isFilled]
    rw [spelled_flatMap_iff, ← some]
    exact isWritable_several_iff.trans
      (and_congr_right' (forall₂_congr fun character _ => isWritable_character_iff))
  rw [Filter.parts, spelled_cons_iff (by simp), spelled_append_iff, and_left_comm, ← characters,
    ← isWritable_token?_iff]
  constructor
  · intro writable
    obtain ⟨⟨excluded, _, characters, _, _⟩, rfl, row⟩ := writable.part
    exact ⟨row.next.1, row.next.2.next.2.next.1⟩
  · rintro ⟨excluded, characters⟩
    have row : IsWritable (form .filter) (filter.excluded, "[", filter.characters, "]", ()) :=
      excluded.beside ((isWritable_mark "[" (by decide)).beside
        (characters.beside ((isWritable_mark "]" (by decide)).beside isWritable_empty)))
    exact row.ofParts

theorem isWritable_atom_iff {atom : Atom} :
    IsWritable (.part .text) atom ↔ Spelled atom.parts := by
  cases atom with
  | bounded range =>
      have choice : IsWritable (.part .text) (.bounded range) ↔ IsWritable (.part .bounded) range :=
        (isWritable_part_iff .text (.inl range)
          (by rintro (_ | _ | _ | _) ⟨⟩; rfl)).trans isWritable_left_iff
      exact choice.trans isWritable_bounded_iff
  | intrinsic name =>
      have choice : IsWritable (.part .text) (.intrinsic name) ↔ IsWritable (.token .intrinsic) name :=
        (isWritable_part_iff .text (.inr (.inl name)) (by rintro (_ | _ | _ | _) ⟨⟩; rfl)).trans
          (isWritable_right_iff.trans isWritable_left_iff)
      rw [choice, isWritable_token_iff, Atom.parts, spelled_leaf_iff]
  | literal text =>
      have choice : IsWritable (.part .text) (.literal text) ↔ IsWritable (.token .literal) text :=
        (isWritable_part_iff .text (.inr (.inr (.inl text)))
          (by rintro (_ | _ | _ | _) ⟨⟩; rfl)).trans
          (isWritable_right_iff.trans (isWritable_right_iff.trans isWritable_left_iff))
      rw [choice, isWritable_token_iff, Atom.parts, spelled_leaf_iff]
  | lowercase name =>
      have choice : IsWritable (.part .text) (.lowercase name) ↔ IsWritable (.token .lowercase) name :=
        (isWritable_part_iff .text (.inr (.inr (.inr name)))
          (by rintro (_ | _ | _ | _) ⟨⟩; rfl)).trans
          (isWritable_right_iff.trans (isWritable_right_iff.trans isWritable_right_iff))
      rw [choice, isWritable_token_iff, Atom.parts, spelled_cons_iff (by simp), spelled_leaf_iff]

theorem isWritable_group_iff {pattern : Pattern} :
    IsWritable (.part .group) pattern ↔ IsWritable (.part .pattern) pattern := by
  constructor
  · intro writable
    obtain ⟨⟨_, pattern, _, _⟩, rfl, row⟩ := writable.part
    exact row.next.2.next.1
  · intro inner
    have row : IsWritable (form .group) ("(", pattern, ")", ()) :=
      (isWritable_mark "(" (by decide)).beside
        (inner.beside ((isWritable_mark ")" (by decide)).beside isWritable_empty))
    exact row.ofParts

theorem isWritable_alternative_iff {sequence : Sequence} :
    IsWritable (.part .alternative) sequence ↔ IsWritable (.part .sequence) sequence := by
  constructor
  · intro writable
    obtain ⟨⟨_, sequence, _⟩, rfl, row⟩ := writable.part
    exact row.next.2.next.1
  · intro inner
    have row : IsWritable (form .alternative) ("|", sequence, ()) :=
      (isWritable_mark "|" (by decide)).beside (inner.beside isWritable_empty)
    exact row.ofParts

theorem isWritable_patternParts_iff {first : Sequence} {alternatives : List Sequence} :
    IsWritable (.part .pattern) (.mk first alternatives) ↔
      IsWritable (.part .sequence) first ∧
        ∀ sequence ∈ alternatives, IsWritable (.part .sequence) sequence := by
  have others : IsWritable (.many (.part .alternative)) alternatives ↔
      ∀ sequence ∈ alternatives, IsWritable (.part .sequence) sequence :=
    isWritable_many_iff.trans (forall₂_congr fun sequence _ => isWritable_alternative_iff)
  rw [← others]
  constructor
  · intro writable
    obtain ⟨⟨first, alternatives, _⟩, ⟨⟩, row⟩ := writable.part
    exact ⟨row.next.1, row.next.2.next.1⟩
  · rintro ⟨first, alternatives⟩
    have row : IsWritable (form .pattern) (_, _, ()) :=
      first.beside (alternatives.beside isWritable_empty)
    exact row.ofParts

theorem isWritable_sequenceParts_iff {repetitions : List Repetition} :
    IsWritable (.part .sequence) (.mk repetitions) ↔
      repetitions ≠ [] ∧
        ∀ repetition ∈ repetitions, IsWritable (.part .repetition) repetition := by
  have members : IsWritable (.several (.part .repetition)) repetitions ↔
      repetitions ≠ [] ∧ ∀ repetition ∈ repetitions, IsWritable (.part .repetition) repetition :=
    isWritable_several_iff
  rw [← members]
  constructor
  · intro writable
    obtain ⟨⟨repetitions, _⟩, ⟨⟩, row⟩ := writable.part
    exact row.next.1
  · intro inner
    have row : IsWritable (form .sequence) (repetitions, ()) := inner.beside isWritable_empty
    exact row.ofParts

theorem isWritable_repetitionParts_iff {element : Element} {cardinality : Option Cardinality} :
    IsWritable (.part .repetition) (.mk element cardinality) ↔
      IsWritable (.part .element) element ∧ Spelled (Cardinality.parts? cardinality) := by
  rw [← isWritable_cardinality?_iff]
  constructor
  · intro writable
    obtain ⟨⟨element, cardinality, _⟩, ⟨⟩, row⟩ := writable.part
    exact ⟨row.next.1, row.next.2.next.1⟩
  · rintro ⟨element, cardinality⟩
    have row : IsWritable (form .repetition) (_, _, ()) :=
      element.beside (cardinality.beside isWritable_empty)
    exact row.ofParts

theorem isWritable_groupElement_iff {pattern : Pattern} :
    IsWritable (.part .element) (.group pattern) ↔ IsWritable (.part .pattern) pattern :=
  ((isWritable_part_iff .element (.inl pattern) (by rintro (_ | _ | _) ⟨⟩; rfl)).trans
    isWritable_left_iff).trans isWritable_group_iff

theorem isWritable_filterElement_iff {filter : Filter} :
    IsWritable (.part .element) (.filter filter) ↔ IsWritable (.part .filter) filter :=
  (isWritable_part_iff .element (.inr (.inl filter)) (by rintro (_ | _ | _) ⟨⟩; rfl)).trans
    (isWritable_right_iff.trans isWritable_left_iff)

theorem isWritable_atomElement_iff {atom : Atom} :
    IsWritable (.part .element) (.atom atom) ↔ IsWritable (.part .text) atom :=
  (isWritable_part_iff .element (.inr (.inr atom)) (by rintro (_ | _ | _) ⟨⟩; rfl)).trans
    (isWritable_right_iff.trans isWritable_right_iff)

mutual

theorem isWritable_pattern_iff : (pattern : Pattern) →
    (IsWritable (.part .pattern) pattern ↔ pattern.isFilled = true ∧ Spelled pattern.parts)
  | .mk first alternatives => by
      rw [isWritable_patternParts_iff, isWritable_sequence_iff first,
        isWritable_sequences_iff alternatives, Pattern.isFilled, Pattern.parts, Bool.and_eq_true,
        spelled_append_iff]
      exact and_and_and_comm

theorem isWritable_sequences_iff : (sequences : List Sequence) →
    ((∀ sequence ∈ sequences, IsWritable (.part .sequence) sequence) ↔
      Sequence.allFilled sequences = true ∧ Spelled (Sequence.listParts sequences))
  | [] => iff_of_true (fun _ absent => absurd absent List.not_mem_nil) ⟨rfl, spelled_nil⟩
  | sequence :: others => by
      refine (List.forall_mem_cons.trans
        (and_congr (isWritable_sequence_iff sequence) (isWritable_sequences_iff others))).trans ?_
      rw [Sequence.allFilled, Sequence.listParts, Bool.and_eq_true, spelled_append_iff]
      exact and_and_and_comm

theorem isWritable_sequence_iff : (sequence : Sequence) →
    (IsWritable (.part .sequence) sequence ↔ sequence.isFilled = true ∧ Spelled sequence.parts)
  | .mk repetitions => by
      rw [isWritable_sequenceParts_iff, isWritable_repetitions_iff repetitions, Sequence.isFilled,
        Sequence.parts]
      simp [and_assoc]

theorem isWritable_repetitions_iff : (repetitions : List Repetition) →
    ((∀ repetition ∈ repetitions, IsWritable (.part .repetition) repetition) ↔
      Repetition.allFilled repetitions = true ∧ Spelled (Repetition.listParts repetitions))
  | [] => iff_of_true (fun _ absent => absurd absent List.not_mem_nil) ⟨rfl, spelled_nil⟩
  | repetition :: others => by
      refine (List.forall_mem_cons.trans (and_congr (isWritable_repetition_iff repetition)
        (isWritable_repetitions_iff others))).trans ?_
      rw [Repetition.allFilled, Repetition.listParts, Bool.and_eq_true, spelled_append_iff]
      exact and_and_and_comm

theorem isWritable_repetition_iff : (repetition : Repetition) →
    (IsWritable (.part .repetition) repetition ↔
      repetition.isFilled = true ∧ Spelled repetition.parts)
  | .mk element cardinality => by
      rw [isWritable_repetitionParts_iff, isWritable_element_iff element, Repetition.isFilled,
        Repetition.parts, spelled_append_iff, and_assoc]

theorem isWritable_element_iff : (element : Element) →
    (IsWritable (.part .element) element ↔ element.isFilled = true ∧ Spelled element.parts)
  | .group pattern => isWritable_groupElement_iff.trans (isWritable_pattern_iff pattern)
  | .filter _ => isWritable_filterElement_iff.trans isWritable_filter_iff
  | .atom _ => (isWritable_atomElement_iff.trans isWritable_atom_iff).trans (and_iff_right rfl).symm

end

theorem isWritable_expression_iff {expression : Expression} :
    IsWritable (.part .expression) expression ↔
      expression.pattern.isFilled = true ∧ Spelled expression.parts := by
  have parts : expression.pattern.isFilled = true ∧ Spelled expression.parts ↔
      IsWritable (.token .lowercase) expression.name ∧
        IsWritable (.part .pattern) expression.pattern ∧
          IsWritable (.optional (.token .note)) expression.note := by
    rw [Expression.parts, spelled_leaf_cons_iff, spelled_append_iff, isWritable_pattern_iff,
      isWritable_token_iff, isWritable_token?_iff]
    grind
  rw [parts]
  constructor
  · intro writable
    obtain ⟨⟨name, _, pattern, note, _, _⟩, rfl, row⟩ := writable.part
    have behindColon := row.next.2.next.2
    exact ⟨row.next.1, behindColon.next.1, behindColon.next.2.next.1⟩
  · rintro ⟨name, pattern, note⟩
    have row : IsWritable (form .expression)
        (expression.name, ":", expression.pattern, expression.note, ["\n"], ()) :=
      name.beside ((isWritable_mark ":" (by decide)).beside
        (pattern.beside (note.beside (isWritable_newlines.beside isWritable_empty))))
    exact row.ofParts

end Grammar
end GrammarBook
