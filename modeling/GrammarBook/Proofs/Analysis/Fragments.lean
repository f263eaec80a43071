import GrammarBook.Proofs.Analysis.Step

namespace GrammarBook

open Walk

/-!
# Fragments of a pattern

The fragments that are found on a walk through a pattern, by recursion on the pattern alone. What the
analyzer keeps track of on its way comes out of every node as it went in: whether it stands in an
expression and in a filter, and the marks of the repetitions around it, of which the innermost is
marked when the node contains a wildcard.
-/

/-- What holds of a pattern if it comes from the parts to the whole everywhere. -/
theorem Pattern.induction {P : Pattern → Prop} {S : Sequence → Prop} {R : Repetition → Prop}
    {E : Element → Prop}
    (pattern : ∀ first alternatives, S first → (∀ sequence ∈ alternatives, S sequence) →
      P (.mk first alternatives))
    (sequence : ∀ repetitions, (∀ repetition ∈ repetitions, R repetition) → S (.mk repetitions))
    (repetition : ∀ element cardinality, E element → R (.mk element cardinality))
    (group : ∀ pattern, P pattern → E (.group pattern)) (filter : ∀ filter, E (.filter filter))
    (atom : ∀ atom, E (.atom atom)) (whole : Pattern) : P whole :=
  @Pattern.rec P S R E (fun sequences => ∀ sequence ∈ sequences, S sequence)
    (fun repetitions => ∀ repetition ∈ repetitions, R repetition) pattern sequence repetition group
    filter atom (fun _ member => absurd member List.not_mem_nil)
    (fun _ _ first others => List.forall_mem_cons.mpr ⟨first, others⟩)
    (fun _ member => absurd member List.not_mem_nil)
    (fun _ _ first others => List.forall_mem_cons.mpr ⟨first, others⟩) whole

/-! ## Recursion on patterns -/

/-- The name of the intrinsic that stands for any character. -/
def isWildcard (intrinsic : String) : Bool := intrinsic == "ANY"

/-- The member of a filter is a wildcard. -/
def Character.isWildcard : Character → Bool
  | bounded _ => false
  | intrinsic name => GrammarBook.isWildcard name

def Atom.isWildcard : Atom → Bool
  | intrinsic name => GrammarBook.isWildcard name
  | _ => false

mutual

/-- The pattern contains a wildcard. -/
def Pattern.hasWildcard : Pattern → Bool
  | .mk first alternatives => first.hasWildcard || Sequence.someWildcard alternatives

def Sequence.someWildcard : List Sequence → Bool
  | [] => false
  | sequence :: others => sequence.hasWildcard || Sequence.someWildcard others

def Sequence.hasWildcard : Sequence → Bool
  | .mk repetitions => Repetition.someWildcard repetitions

def Repetition.someWildcard : List Repetition → Bool
  | [] => false
  | repetition :: others => repetition.hasWildcard || Repetition.someWildcard others

def Repetition.hasWildcard : Repetition → Bool
  | .mk element _ => element.hasWildcard

def Element.hasWildcard : Element → Bool
  | .group pattern => pattern.hasWildcard
  | .filter filter => filter.characters.any Character.isWildcard
  | .atom atom => atom.isWildcard

end

/-- The fragments of a glyph or a range of glyphs, within a class. -/
def Bounded.rangeFragments (bounded : Bounded) : List Fragment :=
  glyphFragments bounded.glyph ++ bounded.extent.elim [] fun last => .text "-" :: glyphFragments last

/-- The fragments of a glyph or a range of glyphs on its own. A range makes a class. -/
def Bounded.fragments (bounded : Bounded) : List Fragment :=
  if bounded.extent.isSome then .text "[" :: (bounded.rangeFragments ++ [.text "]"])
  else bounded.rangeFragments

/-- The fragments of a member of a filter. -/
def Character.fragments : Character → List Fragment
  | bounded range => range.rangeFragments
  | intrinsic name => intrinsicFragments name true

def Filter.fragments (filter : Filter) : List Fragment :=
  .text (if filter.isExcluded then "[^" else "[") ::
    (filter.characters.flatMap Character.fragments ++ [.text "]"])

def Atom.fragments : Atom → List Fragment
  | bounded range => range.fragments
  | intrinsic name => intrinsicFragments name false
  | literal text => [.text (Regex.escape (Token.literalText text))]
  | lowercase name => [.reference name]

def Cardinality.quantifier : Cardinality → String
  | quantified mark => mark
  | constrained constraint => Analyzer.quantifier constraint

/-- The fragments behind an element that is repeated. A quantifier behind a wildcard is lazy. -/
def quantifierFragments (cardinality : Option Cardinality) (isLazy : Bool) : List Fragment :=
  cardinality.elim [] fun cardinality =>
    .text cardinality.quantifier :: if isLazy then [.text "?"] else []

mutual

def Pattern.fragments : Pattern → List Fragment
  | .mk first alternatives => first.fragments ++ Sequence.alternativeFragments alternatives

def Sequence.alternativeFragments : List Sequence → List Fragment
  | [] => []
  | sequence :: others =>
    .text "|" :: (sequence.fragments ++ Sequence.alternativeFragments others)

def Sequence.fragments : Sequence → List Fragment
  | .mk repetitions => Repetition.rowFragments repetitions

def Repetition.rowFragments : List Repetition → List Fragment
  | [] => []
  | repetition :: others => repetition.fragments ++ Repetition.rowFragments others

def Repetition.fragments : Repetition → List Fragment
  | .mk element cardinality =>
    element.fragments ++ quantifierFragments cardinality element.hasWildcard

def Element.fragments : Element → List Fragment
  | .group pattern => .text Regex.groupStart :: (pattern.fragments ++ [.text ")"])
  | .filter filter => filter.fragments
  | .atom atom => atom.fragments

end

/-- The fragments of an expression. -/
def Expression.fragments (expression : Expression) : List Fragment :=
  .text Regex.groupStart :: (expression.pattern.fragments ++ [.text ")"])

/-! ## Walks through patterns -/

namespace Findings

@[simp] theorem write_nil (findings : Findings) : findings.write [] = findings := by
  simp [write]

@[simp] theorem write_write (findings : Findings) (front back : List Fragment) :
    (findings.write front).write back = findings.write (front ++ back) := by
  simp [write]

theorem mark_mark (findings : Findings) (one other : Bool) :
    (findings.mark one).mark other = findings.mark (one || other) := by
  rcases findings with ⟨_, _, _, _, _, _, _, _, _, _, _, _, _, _, _ | ⟨innermost, outer⟩⟩
  · rfl
  · simp [mark, markInnermost, Bool.or_assoc]

theorem mark_write (findings : Findings) (fragments : List Fragment) (isWild : Bool) :
    (findings.write fragments).mark isWild = (findings.mark isWild).write fragments := rfl

@[simp] theorem mark_inExpression (findings : Findings) (isWild : Bool) :
    (findings.mark isWild).inExpression = findings.inExpression := rfl

@[simp] theorem write_inExpression (findings : Findings) (fragments : List Fragment) :
    (findings.write fragments).inExpression = findings.inExpression := rfl

end Findings

/-- In an expression, and in a filter or not, the events add the fragments and mark the innermost
repetition if there is a wildcard. -/
def Adds (inFilter : Bool) (events : List Event) (fragments : List Fragment) (isWild : Bool) : Prop :=
  ∀ findings : Findings, findings.inExpression = true → findings.inFilter = inFilter →
    events.foldl Findings.step findings = (findings.mark isWild).write fragments

section Adds

variable {inFilter isWild : Bool} {events : List Event} {fragments : List Fragment}

theorem adds_nil : Adds inFilter [] [] false := fun findings _ _ => by
  rw [Findings.mark_false, Findings.write_nil]
  rfl

theorem Adds.append {later : List Event} {others : List Fragment} {alsoWild : Bool}
    (first : Adds inFilter events fragments isWild) (second : Adds inFilter later others alsoWild) :
    Adds inFilter (events ++ later) (fragments ++ others) (isWild || alsoWild) := by
  intro findings inside filtered
  rw [List.foldl_append, first findings inside filtered, second _ (by simpa) (by simpa),
    Findings.mark_write, Findings.write_write, Findings.mark_mark]

/-- An event that writes fragments of its own. -/
theorem adds_event {event : Event} (steps : ∀ findings : Findings, findings.inExpression = true →
    findings.inFilter = inFilter → findings.step event = findings.write fragments) :
    Adds inFilter [event] fragments false :=
  fun findings inside filtered => by
    rw [Findings.mark_false]
    exact steps findings inside filtered

theorem Adds.cons {event : Event} {front : List Fragment}
    (first : Adds inFilter [event] front false) (later : Adds inFilter events fragments isWild) :
    Adds inFilter (event :: events) (front ++ fragments) isWild := by
  have both := first.append later
  rwa [Bool.false_or] at both

/-- A leaf that is not written. -/
theorem adds_silent {kind : Kind} (silent : kind ∈ [.delimiter, .number, .excluded, .lowercase, .note])
    (text : String) : Adds inFilter [.leaf kind text] [] false := by
  refine adds_event fun findings _ _ => ?_
  rw [Findings.write_nil]
  simp only [List.mem_cons, List.not_mem_nil, or_false] at silent
  rcases silent with rfl | rfl | rfl | rfl | rfl
  · rfl
  · rfl
  · rfl
  · rfl
  · rfl

theorem Adds.behindSilent {kind : Kind} (silent : kind ∈ [.delimiter, .number, .excluded, .lowercase, .note])
    {text : String} (later : Adds inFilter events fragments isWild) :
    Adds inFilter (.leaf kind text :: events) fragments isWild :=
  (adds_silent silent text).cons later

/-- A node adds what its parts add, between what it opens and closes with. -/
theorem Adds.within {node : Node} {rank : Option Rank} {front back : List Fragment}
    (inner : Adds inFilter events fragments isWild)
    (opens : Adds inFilter [.enter node rank] front false)
    (closes : Adds inFilter [.leave node rank] back false) :
    Adds inFilter (within node rank events) (front ++ (fragments ++ back)) isWild := by
  have closed := inner.append closes
  rw [Bool.or_false] at closed
  exact opens.cons closed

/-- A node that writes nothing itself. -/
theorem Adds.plain {node : Node} {rank : Option Rank} (inner : Adds inFilter events fragments isWild)
    (opens : ∀ findings : Findings, findings.opened node = findings)
    (closes : ∀ findings : Findings, findings.closed node = findings) :
    Adds inFilter (Walk.within node rank events) fragments isWild := by
  have around : Adds inFilter (Walk.within node rank events) ([] ++ (fragments ++ [])) isWild :=
    inner.within (adds_event fun findings _ _ => (opens findings).trans findings.write_nil.symm)
      (adds_event fun findings _ _ => (closes findings).trans findings.write_nil.symm)
  rwa [List.nil_append, List.append_nil] at around

theorem adds_glyph (glyph : String) :
    Adds inFilter [.leaf .glyph glyph] (glyphFragments glyph) false :=
  adds_event fun _ inside _ => if_pos inside

theorem adds_intrinsic (name : String) :
    Adds inFilter [.leaf .intrinsic name] (intrinsicFragments name inFilter) (isWildcard name) := by
  rintro findings inside rfl
  rfl

theorem adds_eachFrom {α : Type} {walk : Rank → α → List Event} {written : α → List Fragment}
    {wild : α → Bool} {members : List α}
    (one : ∀ member ∈ members, ∀ rank,
      Adds inFilter (walk rank member) (written member) (wild member)) (size index : Nat) :
    Adds inFilter (eachFrom size walk index members) (members.flatMap written)
      (members.any wild) := by
  induction members generalizing index with
  | nil => exact adds_nil
  | cons member members ih =>
      obtain ⟨first, others⟩ := List.forall_mem_cons.mp one
      exact (first ⟨index, size⟩).append (ih others (index + 1))

/-! ### Glyphs and filters -/

theorem adds_extent (glyph : String) :
    Adds inFilter (extentEvents glyph) (.text "-" :: glyphFragments glyph) false := by
  have inner : Adds inFilter [mark "..", .leaf .glyph glyph] (glyphFragments glyph) false :=
    (adds_glyph glyph).behindSilent (by simp)
  have around : Adds inFilter (extentEvents glyph)
      ([Fragment.text "-"] ++ (glyphFragments glyph ++ [])) false :=
    inner.within (adds_event fun _ _ _ => rfl)
      (adds_event fun findings _ _ => findings.write_nil.symm)
  rwa [List.append_nil] at around

/-- The parts of a glyph or a range of glyphs. -/
theorem adds_boundedParts (bounded : Bounded) :
    Adds inFilter (.leaf .glyph bounded.glyph :: bounded.extent.elim [] extentEvents)
      bounded.rangeFragments false := by
  apply (adds_glyph bounded.glyph).cons
  cases bounded.extent with
  | none => exact adds_nil
  | some last => exact adds_extent last

theorem adds_bounded_inFilter (bounded : Bounded) :
    Adds true bounded.events bounded.rangeFragments false := by
  have none : ∀ findings : Findings, findings.inFilter = true →
      Analyzer.needsClass bounded findings = false := by
    intro findings filtered
    rw [Analyzer.needsClass, filtered]
    rfl
  have around : Adds true bounded.events ([] ++ (bounded.rangeFragments ++ [])) false := by
    apply (adds_boundedParts bounded).within
    · refine adds_event fun findings _ filtered => ?_
      rw [Findings.write_nil, Findings.step_enter_bounded, none findings filtered]
      rfl
    · refine adds_event fun findings _ filtered => ?_
      rw [Findings.write_nil, Findings.step_leave_bounded, none findings filtered]
      rfl
  rwa [List.nil_append, List.append_nil] at around

/-- Outside of a filter a range has a class of its own. -/
theorem adds_bounded (bounded : Bounded) : Adds false bounded.events bounded.fragments false := by
  have needs : ∀ findings : Findings, findings.inFilter = false →
      Analyzer.needsClass bounded findings = bounded.extent.isSome := by
    intro findings filtered
    rw [Analyzer.needsClass, filtered]
    rfl
  have around : Adds false bounded.events
      ((if bounded.extent.isSome then [Fragment.text "["] else []) ++
        (bounded.rangeFragments ++ if bounded.extent.isSome then [Fragment.text "]"] else []))
      false := by
    apply (adds_boundedParts bounded).within
    · refine adds_event fun findings _ filtered => ?_
      rw [Findings.step_enter_bounded, needs findings filtered]
      split
      · rfl
      · exact findings.write_nil.symm
    · refine adds_event fun findings _ filtered => ?_
      rw [Findings.step_leave_bounded, needs findings filtered]
      split
      · rfl
      · exact findings.write_nil.symm
  rw [Bounded.fragments]
  cases isRange : bounded.extent.isSome with
  | true =>
      rw [isRange] at around
      exact around
  | false =>
      rw [isRange, if_neg Bool.false_ne_true, if_neg Bool.false_ne_true, List.nil_append,
        List.append_nil] at around
      exact around

theorem adds_character (rank : Rank) (character : Character) :
    Adds true (character.events rank) character.fragments character.isWildcard := by
  cases character with
  | bounded bounded => exact (adds_bounded_inFilter bounded).plain (fun _ => rfl) (fun _ => rfl)
  | intrinsic name => exact (adds_intrinsic name).plain (fun _ => rfl) (fun _ => rfl)

/-- A filter is entered and left again. -/
theorem adds_filter (filter : Filter) :
    Adds false filter.events filter.fragments (filter.characters.any Character.isWildcard) := by
  have excluded : Adds true (leaf? .excluded filter.excluded) [] false := by
    cases filter.excluded with
    | none => exact adds_nil
    | some text => exact adds_silent (by simp) text
  have characters : Adds true (each Character.events filter.characters)
      (filter.characters.flatMap Character.fragments)
      (filter.characters.any Character.isWildcard) :=
    adds_eachFrom (fun character _ rank => adds_character rank character) _ 1
  have bracket : Adds true (mark "[" :: (each Character.events filter.characters ++ [mark "]"]))
      (filter.characters.flatMap Character.fragments ++ [])
      (filter.characters.any Character.isWildcard || false) :=
    (characters.append (adds_silent (by simp) "]")).behindSilent (by simp)
  have parts := excluded.append bracket
  rw [Bool.or_false, Bool.false_or, List.append_nil, List.nil_append] at parts
  intro findings inside filtered
  rw [Filter.events, within, List.foldl_cons, List.foldl_append, Findings.step_enter_filter,
    parts _ (by exact inside) rfl]
  simp [Findings.step_leave_filter, Findings.mark, Findings.write, Filter.fragments, filtered]

theorem adds_atom (atom : Atom) : Adds false atom.events atom.fragments atom.isWildcard := by
  cases atom with
  | bounded bounded => exact (adds_bounded bounded).plain (fun _ => rfl) (fun _ => rfl)
  | intrinsic name => exact (adds_intrinsic name).plain (fun _ => rfl) (fun _ => rfl)
  | literal text =>
      have leaf : Adds false [.leaf .literal text]
          [.text (Regex.escape (Token.literalText text))] false :=
        adds_event fun _ inside _ => if_pos inside
      exact leaf.plain (fun _ => rfl) (fun _ => rfl)
  | lowercase name =>
      have around : Adds false (Atom.lowercase name).events
          ([Fragment.reference name] ++ ([] ++ [])) false :=
        (adds_silent (by simp) name).within (adds_event fun _ _ _ => rfl)
          (adds_event fun findings _ _ => findings.write_nil.symm)
      exact around

/-! ### Quantifiers -/

theorem adds_limit (limit : Limit) : Adds inFilter limit.events [] false := by
  refine Adds.plain ?_ (fun _ => rfl) (fun _ => rfl)
  apply Adds.behindSilent (by simp)
  cases limit.maximum with
  | none => exact adds_nil
  | some maximum => exact adds_silent (by simp) maximum

theorem adds_constraint (constraint : Constraint) :
    Adds inFilter constraint.events [.text (Analyzer.quantifier constraint)] false := by
  have limit : Adds inFilter (constraint.limit.elim [] Limit.events) [] false := by
    cases constraint.limit with
    | none => exact adds_nil
    | some limit => exact adds_limit limit
  have parts : Adds inFilter (mark "\x7b" :: .leaf .number constraint.minimum ::
      (constraint.limit.elim [] Limit.events ++ [mark "\x7d"])) [] false :=
    ((limit.append (adds_silent (by simp) "\x7d")).behindSilent (by simp)).behindSilent (by simp)
  have around : Adds inFilter constraint.events
      ([] ++ ([] ++ [Fragment.text (Analyzer.quantifier constraint)])) false :=
    parts.within (adds_event fun findings _ _ => findings.write_nil.symm)
      (adds_event fun _ inside _ => if_pos inside)
  exact around

theorem adds_cardinality (cardinality : Cardinality) :
    Adds inFilter cardinality.events [.text cardinality.quantifier] false := by
  cases cardinality with
  | constrained constraint =>
      exact (adds_constraint constraint).plain (fun _ => rfl) (fun _ => rfl)
  | quantified text =>
      have leaf : Adds inFilter [.leaf .quantified text] [.text text] false :=
        adds_event fun _ inside _ => if_pos inside
      exact leaf.plain (fun _ => rfl) (fun _ => rfl)

/-- Leaving a repetition takes its mark away. -/
theorem endRepetition_eq (repetition : Repetition) (findings : Findings) (isWild : Bool) :
    Analyzer.endRepetition repetition { findings with wildcards := isWild :: findings.wildcards } =
      (findings.mark isWild).write
        (if isWild && repetition.cardinality.isSome then [.text "?"] else []) := by
  cases isWild with
  | false => rw [Findings.mark_false, Bool.false_and, if_neg Bool.false_ne_true, Findings.write_nil]; rfl
  | true =>
      rw [Findings.mark_true, Bool.true_and]
      change (if repetition.cardinality.isSome then _ else _) = _
      split
      · rfl
      · exact (Findings.write_nil _).symm

/-- Behind an element its cardinality is added. The mark of the repetition, which the element has set
if it contains a wildcard, makes the quantifier lazy and goes on to the repetition around it. -/
theorem adds_repetition {element : Element}
    (inner : Adds false element.events element.fragments element.hasWildcard)
    (cardinality : Option Cardinality) (rank : Rank) :
    Adds false (Repetition.events rank (.mk element cardinality))
      (Repetition.fragments (.mk element cardinality)) element.hasWildcard := by
  intro findings inside filtered
  have quantifier : Adds false (Cardinality.events? cardinality)
      (cardinality.toList.map fun cardinality => .text cardinality.quantifier) false := by
    cases cardinality with
    | none => exact adds_nil
    | some cardinality => exact adds_cardinality cardinality
  have parts := inner.append quantifier
  rw [Repetition.events, within, List.foldl_cons, List.foldl_append, Findings.step_enter_repetition,
    parts _ (by exact inside) (by exact filtered), Bool.or_false]
  have left := endRepetition_eq (.mk element cardinality)
    (findings.write (element.fragments ++
      cardinality.toList.map fun cardinality => .text cardinality.quantifier)) element.hasWildcard
  rw [Findings.mark_write, Findings.write_write] at left
  refine Eq.trans left (congrArg (findings.mark element.hasWildcard).write ?_)
  rw [Repetition.fragments, quantifierFragments, List.append_assoc]
  cases cardinality with
  | none => simp [Repetition.cardinality]
  | some cardinality => simp [Repetition.cardinality]

/-! ### Patterns -/

theorem adds_alternatives {alternatives : List Sequence}
    (one : ∀ sequence ∈ alternatives,
      Adds false sequence.events sequence.fragments sequence.hasWildcard) (size index : Nat) :
    Adds false (Sequence.alternativeEventsFrom size index alternatives)
      (Sequence.alternativeFragments alternatives) (Sequence.someWildcard alternatives) := by
  induction alternatives generalizing index with
  | nil => exact adds_nil
  | cons sequence others ih =>
      obtain ⟨first, later⟩ := List.forall_mem_cons.mp one
      have around : Adds false
          (within (.alternative sequence) (some ⟨index, size⟩) (mark "|" :: sequence.events))
          ([Fragment.text "|"] ++ (sequence.fragments ++ [])) sequence.hasWildcard :=
        (first.behindSilent (by simp)).within (adds_event fun _ _ _ => rfl)
          (adds_event fun findings _ _ => findings.write_nil.symm)
      rw [List.append_nil] at around
      exact around.append (ih later (index + 1))

theorem adds_repetitions {repetitions : List Repetition}
    (one : ∀ repetition ∈ repetitions, ∀ rank,
      Adds false (repetition.events rank) repetition.fragments repetition.hasWildcard)
    (size index : Nat) :
    Adds false (Repetition.eventsFrom size index repetitions)
      (Repetition.rowFragments repetitions) (Repetition.someWildcard repetitions) := by
  induction repetitions generalizing index with
  | nil => exact adds_nil
  | cons repetition others ih =>
      obtain ⟨first, later⟩ := List.forall_mem_cons.mp one
      exact (first ⟨index, size⟩).append (ih later (index + 1))

/-- A walk through a pattern adds the fragments of the pattern. -/
theorem adds_pattern (pattern : Pattern) :
    Adds false pattern.events pattern.fragments pattern.hasWildcard := by
  refine Pattern.induction
    (P := fun pattern => Adds false pattern.events pattern.fragments pattern.hasWildcard)
    (S := fun sequence => Adds false sequence.events sequence.fragments sequence.hasWildcard)
    (R := fun repetition => ∀ rank,
      Adds false (repetition.events rank) repetition.fragments repetition.hasWildcard)
    (E := fun element => Adds false element.events element.fragments element.hasWildcard)
    ?_ ?_ ?_ ?_ ?_ ?_ pattern
  · intro first alternatives ofFirst ofAlternatives
    exact (ofFirst.append (adds_alternatives ofAlternatives _ 1)).plain (fun _ => rfl) (fun _ => rfl)
  · intro repetitions ofRepetitions
    exact (adds_repetitions ofRepetitions _ 1).plain (fun _ => rfl) (fun _ => rfl)
  · intro element cardinality ofElement rank
    exact adds_repetition ofElement cardinality rank
  · intro pattern ofPattern
    have bracket : Adds false (mark "(" :: (pattern.events ++ [mark ")"]))
        (pattern.fragments ++ []) (pattern.hasWildcard || false) :=
      (ofPattern.append (adds_silent (by simp) ")")).behindSilent (by simp)
    rw [List.append_nil, Bool.or_false] at bracket
    have around : Adds false
        (within (.group pattern) none (mark "(" :: (pattern.events ++ [mark ")"])))
        ([Fragment.text Regex.groupStart] ++ (pattern.fragments ++ [Fragment.text ")"]))
        pattern.hasWildcard :=
      bracket.within (adds_event fun _ _ _ => rfl) (adds_event fun _ _ _ => rfl)
    exact around.plain (fun _ => rfl) (fun _ => rfl)
  · intro filter
    exact (adds_filter filter).plain (fun _ => rfl) (fun _ => rfl)
  · intro atom
    exact (adds_atom atom).plain (fun _ => rfl) (fun _ => rfl)

end Adds

end GrammarBook
