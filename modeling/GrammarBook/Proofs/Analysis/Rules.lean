import GrammarBook.Proofs.Analysis.Step

namespace GrammarBook

open Walk

/-!
# Occurrences and literals of a rule

What is noted on a walk through a rule, by recursion on the rule alone: the references with the
plurality that each has in its place, and the texts of the literals. The brackets around a term count
only by what they have decided: the innermost one with a cardinality decides for all references in
it, and where there is none a reference is left to its own cardinality.
-/

/-! ## Recursion on rules -/

/-- The plurality of a reference where the brackets around it have decided on one or not. -/
def Reference.pluralityIn (decided : Option Bool) (reference : Reference) : Bool :=
  decided.getD (reference.cardinality.any Cardinality.isPlural)

mutual

/-- The occurrences in a term. -/
def Term.occurrences (decided : Option Bool) : Term → List Occurrence
  | .reference use => [⟨use.identifier, use.pluralityIn decided⟩]
  | .bracket terms cardinality =>
    Term.listOccurrences ((cardinality.map Cardinality.isPlural).or decided) terms
  | .literal _ => []

def Term.listOccurrences (decided : Option Bool) : List Term → List Occurrence
  | [] => []
  | term :: others => term.occurrences decided ++ Term.listOccurrences decided others

end

mutual

def Term.literals : Term → List String
  | .reference _ => []
  | .bracket terms _ => Term.listLiterals terms
  | .literal text => [Token.literalText text]

def Term.listLiterals : List Term → List String
  | [] => []
  | term :: others => term.literals ++ Term.listLiterals others

end

/-- The occurrence of the name in a line, where nothing makes it plural. -/
def Line.occurrence (line : Line) : Occurrence := ⟨line.identifier, false⟩

def Definition.occurrences : Definition → List Occurrence
  | multiline lines => lines.map Line.occurrence
  | inlined terms _ => Term.listOccurrences none terms

def Definition.literals : Definition → List String
  | multiline _ => []
  | inlined terms _ => Term.listLiterals terms

/-- The occurrences that become attributes: each line's own, and of terms each name once. -/
def Definition.merged (definition : Definition) : List Occurrence :=
  match definition with
  | inlined .. => Occurrence.consolidate definition.occurrences
  | multiline _ => definition.occurrences

/-- The attributes of a rule. -/
def Rule.attributes (rule : Rule) : List Attribute := Occurrence.attributes rule.definition.merged

/-- The names that some of the occurrences are plural of. -/
def Occurrence.pluralNames (occurrences : List Occurrence) : List String :=
  (occurrences.filter (·.isPlural)).map (·.identifier.name)

/-- The set with more members. -/
def NameSet.insertAll (names : NameSet) (more : List String) : NameSet :=
  more.foldl NameSet.insert names

theorem NameSet.mem_insertAll {names : NameSet} {more : List String} {name : String} :
    name ∈ (names.insertAll more).toList ↔ name ∈ names.toList ∨ name ∈ more := by
  induction more generalizing names with
  | nil => simp [insertAll]
  | cons first more ih =>
      change name ∈ ((names.insert first).insertAll more).toList ↔ _
      rw [ih, NameSet.mem_insert, List.mem_cons, or_assoc, or_left_comm]

theorem NameSet.insertAll_insertAll (names : NameSet) (front back : List String) :
    (names.insertAll front).insertAll back = names.insertAll (front ++ back) :=
  List.foldl_append.symm

/-! ## Walks through terms -/

namespace Findings

/-- The findings with more occurrences in the current rule and more literals. -/
def noteAll (findings : Findings) (occurrences : List Occurrence) (literals : List String) :
    Findings :=
  { findings with
    plurals := findings.plurals.insertAll (Occurrence.pluralNames occurrences)
    occurrences := findings.occurrences ++ occurrences
    literals := findings.literals.insertAll literals }

@[simp] theorem noteAll_nil (findings : Findings) : findings.noteAll [] [] = findings := by
  rw [noteAll, List.append_nil]
  rfl

theorem noteAll_noteAll (findings : Findings) (front back : List Occurrence)
    (literals others : List String) :
    (findings.noteAll front literals).noteAll back others =
      findings.noteAll (front ++ back) (literals ++ others) := by
  simp [noteAll, NameSet.insertAll_insertAll, Occurrence.pluralNames]

theorem noteAll_addOccurrence (occurrence : Occurrence) (findings : Findings) :
    Analyzer.addOccurrence occurrence findings = findings.noteAll [occurrence] [] := by
  rcases occurrence with ⟨identifier, _ | _⟩ <;> rfl

end Findings

/-- Outside of expressions, the events note the literals and the occurrences that there are where the
brackets around them have decided on a plurality or not. -/
def Notes (events : List Event) (occurrences : Option Bool → List Occurrence)
    (literals : List String) : Prop :=
  ∀ findings : Findings, findings.inExpression = false →
    events.foldl Findings.step findings =
      findings.noteAll (occurrences (findings.brackets.findSome? id)) literals

section Notes

variable {events later : List Event} {occurrences more : Option Bool → List Occurrence}
  {literals others : List String}

theorem notes_nil : Notes [] (fun _ => []) [] :=
  fun findings _ => (Findings.noteAll_nil findings).symm

theorem Notes.append (first : Notes events occurrences literals)
    (second : Notes later more others) :
    Notes (events ++ later) (fun decided => occurrences decided ++ more decided)
      (literals ++ others) := by
  intro findings outside
  rw [List.foldl_append, first findings outside, second _ (by exact outside),
    Findings.noteAll_noteAll]
  rfl

/-- An event that changes nothing. -/
theorem notes_event {event : Event}
    (same : ∀ findings : Findings, findings.inExpression = false → findings.step event = findings) :
    Notes [event] (fun _ => []) [] :=
  fun findings outside => (same findings outside).trans (Findings.noteAll_nil findings).symm

/-- Outside of expressions only literals and intrinsics are taken notice of. -/
theorem notes_silent {kind : Kind} (notIntrinsic : kind ≠ .intrinsic) (notLiteral : kind ≠ .literal)
    (text : String) : Notes [.leaf kind text] (fun _ => []) [] := by
  refine notes_event fun findings outside => ?_
  have notInside : ¬ findings.inExpression = true := by simp [outside]
  cases kind
  case intrinsic => exact absurd rfl notIntrinsic
  case literal => exact absurd rfl notLiteral
  case glyph => exact if_neg notInside
  case quantified => exact if_neg notInside
  all_goals rfl

theorem Notes.behindSilent {event : Event} (inner : Notes events occurrences literals)
    (silent : Notes [event] (fun _ => []) []) : Notes (event :: events) occurrences literals :=
  silent.append inner

theorem Notes.beforeSilent {event : Event} (inner : Notes events occurrences literals)
    (silent : Notes [event] (fun _ => []) []) : Notes (events ++ [event]) occurrences literals := by
  have both := inner.append silent
  simpa only [List.append_nil] using both

/-- A node that changes nothing itself. -/
theorem Notes.plain {node : Node} {rank : Option Rank} (inner : Notes events occurrences literals)
    (opens : ∀ findings : Findings, findings.opened node = findings)
    (closes : ∀ findings : Findings, findings.inExpression = false →
      findings.closed node = findings) :
    Notes (within node rank events) occurrences literals :=
  have closed : Notes [.leave node rank] (fun _ => []) [] := notes_event closes
  have opened : Notes [.enter node rank] (fun _ => []) [] :=
    notes_event fun findings _ => opens findings
  (inner.beforeSilent closed).behindSilent opened

theorem notes_leaf? {kind : Kind} (notIntrinsic : kind ≠ .intrinsic) (notLiteral : kind ≠ .literal)
    (text : Option String) : Notes (leaf? kind text) (fun _ => []) [] := by
  cases text with
  | none => exact notes_nil
  | some text => exact notes_silent notIntrinsic notLiteral text

theorem notes_note? (note : Option String) : Notes (leaf? .note note) (fun _ => []) [] :=
  notes_leaf? (by simp) (by simp) note

theorem notes_mark (text : String) : Notes [mark text] (fun _ => []) [] :=
  notes_silent (by simp) (by simp) text

theorem notes_limit (limit : Limit) : Notes limit.events (fun _ => []) [] := by
  have maximum : Notes (leaf? .number limit.maximum) (fun _ => []) [] :=
    notes_leaf? (by simp) (by simp) limit.maximum
  exact (maximum.behindSilent (notes_mark "..")).plain (fun _ => rfl) fun _ _ => rfl

theorem notes_constraint (constraint : Constraint) : Notes constraint.events (fun _ => []) [] := by
  have limit : Notes (constraint.limit.elim [] Limit.events) (fun _ => []) [] := by
    cases constraint.limit with
    | none => exact notes_nil
    | some limit => exact notes_limit limit
  have minimum : Notes [.leaf .number constraint.minimum] (fun _ => []) [] :=
    notes_silent (by simp) (by simp) constraint.minimum
  refine Notes.plain ?_ (fun _ => rfl) fun findings outside => if_neg (by simp [outside])
  exact ((limit.beforeSilent (notes_mark "\x7d")).behindSilent minimum).behindSilent
    (notes_mark "\x7b")

theorem notes_cardinality? (cardinality : Option Cardinality) :
    Notes (Cardinality.events? cardinality) (fun _ => []) [] := by
  rcases cardinality with _ | mark | constraint
  · exact notes_nil
  · exact (notes_silent (by simp) (by simp) mark).plain (fun _ => rfl) fun _ _ => rfl
  · exact (notes_constraint constraint).plain (fun _ => rfl) fun _ _ => rfl

theorem notes_identifier (identifier : Identifier) : Notes identifier.events (fun _ => []) [] := by
  cases identifier with
  | lower name => exact (notes_silent (by simp) (by simp) name).plain (fun _ => rfl) fun _ _ => rfl
  | upper name => exact (notes_silent (by simp) (by simp) name).plain (fun _ => rfl) fun _ _ => rfl

/-- A reference is noted before its parts, with the plurality that it has within the brackets. -/
theorem notes_reference (reference : Reference) :
    Notes reference.events
      (fun decided => [⟨reference.identifier, reference.pluralityIn decided⟩]) [] := by
  have parts : Notes (reference.identifier.events ++ Cardinality.events? reference.cardinality)
      (fun _ => []) [] :=
    (notes_identifier reference.identifier).append (notes_cardinality? reference.cardinality)
  have closes : Notes [.leave (.reference reference) none] (fun _ => []) [] :=
    notes_event fun _ _ => rfl
  have opens : Notes [.enter (.reference reference) none]
      (fun decided => [⟨reference.identifier, reference.pluralityIn decided⟩]) [] :=
    fun findings _ => Findings.noteAll_addOccurrence _ findings
  exact opens.append (parts.beforeSilent closes)

/-- Within a bracket that has a cardinality, this cardinality decides. -/
theorem Notes.bracket {terms : List Term} {cardinality : Option Cardinality}
    (inner : Notes events occurrences literals) :
    Notes (within (.bracket terms cardinality) none events)
      (fun decided => occurrences ((cardinality.map Cardinality.isPlural).or decided)) literals := by
  intro findings outside
  have decides : (cardinality.map Cardinality.isPlural :: findings.brackets).findSome? id =
      (cardinality.map Cardinality.isPlural).or (findings.brackets.findSome? id) := by
    cases cardinality with
    | none => rfl
    | some cardinality => rfl
  rw [within, List.foldl_cons, List.foldl_append, inner _ (by exact outside)]
  exact congrArg (fun decided => findings.noteAll (occurrences decided) literals) decides

mutual

theorem notes_term (rank : Rank) : ∀ term : Term,
    Notes (term.events rank) (fun decided => term.occurrences decided) term.literals
  | .reference use => by
    rw [Term.events, Term.literals]
    simp only [Term.occurrences]
    exact (notes_reference use).plain (fun _ => rfl) fun _ _ => rfl
  | .bracket terms cardinality => by
    rw [Term.events, Term.literals]
    simp only [Term.occurrences]
    refine Notes.plain ?_ (fun _ => rfl) fun _ _ => rfl
    have closing : Notes (mark ")" :: Cardinality.events? cardinality) (fun _ => []) [] :=
      (notes_cardinality? cardinality).behindSilent (notes_mark ")")
    have parts := (notes_terms terms.length 1 terms).append closing
    simp only [List.append_nil] at parts
    exact (parts.behindSilent (notes_mark "(")).bracket
  | .literal text => by
    rw [Term.events, Term.literals]
    simp only [Term.occurrences]
    refine Notes.plain ?_ (fun _ => rfl) fun _ _ => rfl
    intro findings outside
    rw [List.foldl_cons, List.foldl_nil, Findings.step_literal, Findings.noteAll,
      if_neg (by simp [outside]), List.append_nil]
    rfl

theorem notes_terms (size : Nat) : ∀ (index : Nat) (terms : List Term),
    Notes (Term.eventsFrom size index terms) (fun decided => Term.listOccurrences decided terms)
      (Term.listLiterals terms)
  | _, [] => by
    rw [Term.eventsFrom, Term.listLiterals]
    simp only [Term.listOccurrences]
    exact notes_nil
  | index, term :: others => by
    rw [Term.eventsFrom, Term.listLiterals]
    simp only [Term.listOccurrences]
    exact (notes_term ⟨index, size⟩ term).append (notes_terms size (index + 1) others)

end

/-! ## Walks through rules -/

theorem notes_line (rank : Rank) (line : Line) :
    Notes (line.events rank) (fun _ => [line.occurrence]) [] := by
  have parts : Notes (mark "-" :: (line.identifier.events ++ leaf? .note line.note))
      (fun _ => []) [] :=
    ((notes_identifier line.identifier).append (notes_note? line.note)).behindSilent
      (notes_mark "-")
  have closes : Notes [.leave (.line line) (some rank)] (fun _ => []) [] :=
    notes_event fun _ _ => rfl
  have opens : Notes [.enter (.line line) (some rank)] (fun _ => [line.occurrence]) [] :=
    fun findings _ => Findings.noteAll_addOccurrence _ findings
  exact opens.append (parts.beforeSilent closes)

theorem notes_lines (size index : Nat) (lines : List Line) :
    Notes (eachFrom size Line.events index lines) (fun _ => lines.map Line.occurrence) [] := by
  induction lines generalizing index with
  | nil => exact notes_nil
  | cons line lines ih => exact (notes_line ⟨index, size⟩ line).append (ih (index + 1))

theorem Definition.events_note (definition : Definition) {findings : Findings}
    (outside : findings.inExpression = false) (unbracketed : findings.brackets = []) :
    definition.events.foldl Findings.step findings =
      findings.noteAll definition.occurrences definition.literals := by
  rcases definition with lines | ⟨terms, note⟩
  · have noted : Notes (multiline lines).events (fun _ => lines.map Line.occurrence) [] :=
      ((notes_lines lines.length 1 lines).plain (fun _ => rfl) fun _ _ => rfl).plain
        (fun _ => rfl) fun _ _ => rfl
    exact noted findings outside
  · have parts := (notes_terms terms.length 1 terms).append (notes_note? note)
    simp only [List.append_nil] at parts
    have noted : Notes (inlined terms note).events
        (fun decided => Term.listOccurrences decided terms) (Term.listLiterals terms) :=
      (parts.plain (fun _ => rfl) fun _ _ => rfl).plain (fun _ => rfl) fun _ _ => rfl
    rw [noted findings outside, unbracketed]
    rfl

end Notes
end GrammarBook
