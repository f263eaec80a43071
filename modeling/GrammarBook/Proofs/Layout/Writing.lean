import GrammarBook.Layout
import GrammarBook.Proofs.Grammar.Form
import GrammarBook.Proofs.Walk.Following

namespace GrammarBook

/-!
# What a formatter writes

A formatter never stops a walk, and every event changes it by a plain step. A walk along a phrase
that stands within one line writes the tokens of the phrase, with blanks where the phrase has
members set apart. This holds of all such phrases for one reason: a walk goes along the form of its
production, as a derivation does.
-/

namespace Formatter

open Walk

/-! ## Steps -/

def append (formatter : Formatter) (text : List Char) : Formatter :=
  { formatter with output := formatter.output ++ String.ofList text }

def opened (formatter : Formatter) (node : Node) (rank : Option Rank) : Formatter :=
  match node with
  | .multiline _ => { formatter with depth := formatter.depth + 1 }
  | .line _ => formatter.append ("\n" ++ formatter.indentation).toList
  | .inlined .. => formatter.append [' ']
  | .term _ | .repetition _ | .character _ => formatter.append (separator rank).toList
  | .pattern _ => if formatter.groups = 0 then formatter.append [' '] else formatter
  | .group _ => { formatter with groups := formatter.groups + 1 }
  | _ => formatter

def closed (formatter : Formatter) (node : Node) (rank : Option Rank) : Formatter :=
  match node with
  | .rule _ => formatter.append ['\n', '\n']
  | .multiline _ => { formatter with depth := formatter.depth - 1 }
  | .expression _ =>
    if rank.any fun rank => rank.index < rank.size then formatter.append ['\n', '\n']
    else formatter.append ['\n']
  | .group _ => { formatter with groups := formatter.groups - 1 }
  | _ => formatter

def step (formatter : Formatter) : Event → Formatter
  | .leaf kind text => formatter.append (leafText kind text).toList
  | .enter node rank => formatter.opened node rank
  | .leave node rank => formatter.closed node rank

@[simp] theorem append_nil (formatter : Formatter) : formatter.append [] = formatter := by
  simp [append]

@[simp] theorem append_append (formatter : Formatter) (front back : List Char) :
    (formatter.append front).append back = formatter.append (front ++ back) := by
  simp [append, String.append_assoc]

@[simp] theorem append_groups (formatter : Formatter) (text : List Char) :
    (formatter.append text).groups = formatter.groups := rfl

theorem append_toList (formatter : Formatter) (text : String) :
    formatter.append text.toList = { formatter with output := formatter.output ++ text } := by
  simp [append]

theorem opening_runOn (node : Node) (rank : Option Rank) (formatter : Formatter) :
    (opening node rank).runOn formatter = (.ok (), formatter.opened node rank) := by
  cases node
  case line =>
    rw [opened, append_toList]
    rfl
  case term | repetition | character =>
    rw [opened, append_toList]
    rfl
  case inlined => rfl
  case pattern =>
    by_cases outside : formatter.groups = 0
    · rw [opened, if_pos outside]
      simp only [opening]
      change Follow.runOn (if formatter.groups = 0 then write " " else pure ()) formatter = _
      rw [if_pos outside]
      rfl
    · rw [opened, if_neg outside]
      change Follow.runOn (if formatter.groups = 0 then write " " else pure ()) formatter = _
      rw [if_neg outside]
      rfl
  all_goals rfl

theorem closing_runOn (node : Node) (rank : Option Rank) (formatter : Formatter) :
    (closing node rank).runOn formatter = (.ok (), formatter.closed node rank) := by
  cases node
  case expression =>
    cases last : rank.any fun rank => rank.index < rank.size with
    | true =>
        have twice := append_append formatter ['\n'] ['\n']
        simp only [closing, closed, last, if_true]
        rw [show formatter.append ['\n', '\n'] = _ from twice.symm]
        rfl
    | false =>
        simp only [closing, closed, last, Bool.false_eq_true, if_false]
        rfl
  case rule => rfl
  all_goals rfl

/-- A formatter goes on from every event. -/
theorem visit_runOn (event : Event) (formatter : Formatter) :
    (visit event).runOn formatter = (.ok (), formatter.step event) := by
  cases event with
  | leaf kind text =>
      rw [step, append_toList]
      rfl
  | enter node rank => exact opening_runOn node rank formatter
  | leave node rank => exact closing_runOn node rank formatter

/-- A formatter follows a walk to its end. -/
theorem follow_runOn (events : List Event) (formatter : Formatter) :
    (follow visit events).runOn formatter = (.ok (), events.foldl step formatter) := by
  induction events generalizing formatter with
  | nil => rfl
  | cons event events ih =>
      rw [List.foldl_cons, ← ih]
      exact Follow.runOn_bind (visit_runOn event formatter)

/-- The canonical text of a document is what its walk makes of a cleared formatter. -/
theorem format_eq (formatter : Formatter) (document : Document) :
    formatter.format document =
      (.ok (document.events.foldl step formatter.cleared).output,
        { document.events.foldl step formatter.cleared with output := "" }) := by
  have cleared : (modify Formatter.cleared : Follow Formatter Unit).runOn formatter =
      (.ok (), formatter.cleared) := rfl
  have walked : (document.walk visit).runOn formatter.cleared =
      (.ok (), document.events.foldl step formatter.cleared) := by
    rw [Document.walk_eq]
    exact follow_runOn document.events formatter.cleared
  rw [format, formatting, Follow.runOn_bind cleared, Follow.runOn_bind walked]
  rfl

end Formatter

/-! ## Walks along forms -/

namespace Grammar

open Walk

/-- The walk through the node of a bracket. -/
def bracketEvents : Term → List Event
  | .bracket terms cardinality =>
    within (.bracket terms cardinality) none <|
      mark "(" :: (Term.eventsFrom terms.length 1 terms ++
        mark ")" :: Cardinality.events? cardinality)
  | _ => []

/-- The walk through a phrase of a production that stands within one line. The rank is that of the
phrase in its list, if it stands in one. -/
def phraseEvents (rank : Rank) : (production : Production) → Meaning production → List Event
  | .identifier, identifier => identifier.events
  | .term, term => term.events rank
  | .reference, reference => reference.events
  | .bracket, term => bracketEvents term
  | .pattern, pattern => pattern.events
  | .alternative, sequence =>
    within (.alternative sequence) (some rank) (mark "|" :: sequence.events)
  | .sequence, sequence => sequence.events
  | .repetition, repetition => repetition.events rank
  | .element, element => element.events
  | .group, pattern => within (.group pattern) none (mark "(" :: (pattern.events ++ [mark ")"]))
  | .filter, filter => filter.events
  | .character, character => character.events rank
  | .bounded, bounded => bounded.events
  | .extent, glyph => extentEvents glyph
  | .text, atom => atom.events
  | .cardinality, cardinality => cardinality.events
  | .constrained, constraint => constraint.events
  | .limit, limit => limit.events
  | _, _ => []

/-- A phrase of the production stands within one line and has no note. -/
def isInline : Production → Bool
  | .document | .notice | .rule | .definition | .multiline | .line | .inlined | .expression => false
  | _ => true

/-- A node of the production is shown its rank. -/
def isRanked : Production → Bool
  | .term | .alternative | .repetition | .character => true
  | _ => false

/-- The rank at which the members of a form start. -/
def startRank : (form : Form) → form.Meaning → Rank
  | .many _, members => ⟨1, List.length members⟩
  | _, _ => ⟨1, 1⟩

/-- The walk along a form. -/
def formEvents : (rank : Rank) → (form : Form) → form.Meaning → List Event
  | _, .token kind, text => [.leaf kind text]
  | _, .mark text, _ => [mark text]
  | _, .bullet, _ | _, .empty, _ => []
  | rank, .part production, value => phraseEvents rank production value
  | _, .next first rest, (front, back) =>
    formEvents (startRank first front) first front ++ formEvents (startRank rest back) rest back
  | _, .either left _, .inl value => formEvents ⟨1, 1⟩ left value
  | _, .either _ right, .inr value => formEvents ⟨1, 1⟩ right value
  | _, .optional form, value => Option.elim value [] (formEvents ⟨1, 1⟩ form)
  | rank, .many form, members =>
    eachFrom rank.size (fun rank => formEvents rank form) rank.index members
  | _, .several form, members =>
    eachFrom (List.length members) (fun rank => formEvents rank form) 1 members

theorem startRank_index (form : Form) (meaning : form.Meaning) :
    (startRank form meaning).index = 1 := by
  cases form <;> rfl

theorem termEvents_eachFrom (size index : Nat) (terms : List Term) :
    Term.eventsFrom size index terms = eachFrom size Term.events index terms := by
  induction terms generalizing index with
  | nil => rfl
  | cons term terms ih => rw [Term.eventsFrom, eachFrom, ih]

theorem repetitionEvents_eachFrom (size index : Nat) (repetitions : List Repetition) :
    Repetition.eventsFrom size index repetitions =
      eachFrom size Repetition.events index repetitions := by
  induction repetitions generalizing index with
  | nil => rfl
  | cons repetition repetitions ih => rw [Repetition.eventsFrom, eachFrom, ih]

theorem alternativeEvents_eachFrom (size index : Nat) (sequences : List Sequence) :
    Sequence.alternativeEventsFrom size index sequences =
      eachFrom size (fun rank => phraseEvents rank .alternative) index sequences := by
  induction sequences generalizing index with
  | nil => rfl
  | cons sequence sequences ih =>
      rw [Sequence.alternativeEventsFrom, ih]
      rfl

theorem leaf?_elim (kind : Kind) (text : Option String) :
    leaf? kind text = text.elim [] (fun text => [.leaf kind text]) := by
  cases text with
  | none => rfl
  | some text => rfl

/-- A walk through a phrase goes along the form of its production. -/
theorem phraseEvents_build {production : Production} (inline : isInline production = true)
    (rank : Rank) (inner : Derivation (form production)) :
    ∃ node : Node, node.production = production ∧
      phraseEvents rank production (build production inner.meaning) =
        within node (if isRanked production then some rank else none)
          (formEvents ⟨1, 1⟩ (form production) inner.meaning) := by
  cases production
  case document | notice | rule | definition | multiline | line | inlined | expression =>
    cases inline
  case identifier =>
    match inner with
    | .left name => exact ⟨.identifier (.lower name.meaning), rfl, rfl⟩
    | .right name => exact ⟨.identifier (.upper name.meaning), rfl, rfl⟩
  case term =>
    match inner with
    | .left (.part reference) =>
      exact ⟨.term (.reference (build .reference reference.meaning)), rfl, rfl⟩
    | .right (.left (.part bracket)) =>
      exact ⟨.term (build .bracket bracket.meaning), rfl, rfl⟩
    | .right (.right text) => exact ⟨.term (.literal text.meaning), rfl, rfl⟩
  case reference =>
    match inner with
    | .next name (.next cardinality .empty) =>
      refine ⟨.reference (build .reference (name.meaning, cardinality.meaning, ())), rfl, ?_⟩
      apply congrArg (within _ _)
      change _ = _ ++ (_ ++ [])
      rw [List.append_nil]
      rfl
  case bracket =>
    match inner with
    | .next opened (.next terms (.next closed (.next cardinality .empty))) =>
      refine ⟨.bracket terms.meaning cardinality.meaning, rfl, ?_⟩
      apply congrArg (within _ _)
      change _ = [_] ++ (_ ++ ([_] ++ (_ ++ [])))
      rw [List.append_nil]
      exact congrArg (mark "(" :: · ++ _) (termEvents_eachFrom _ 1 terms.meaning)
  case pattern =>
    match inner with
    | .next first (.next alternatives .empty) =>
      refine ⟨.pattern (.mk first.meaning alternatives.meaning), rfl, ?_⟩
      apply congrArg (within _ _)
      change _ = _ ++ (_ ++ [])
      rw [List.append_nil]
      exact congrArg (Sequence.events first.meaning ++ ·)
        (alternativeEvents_eachFrom _ 1 alternatives.meaning)
  case alternative =>
    match inner with
    | .next bar (.next sequence .empty) =>
      refine ⟨.alternative sequence.meaning, rfl, ?_⟩
      apply congrArg (within _ _)
      change _ = [_] ++ (_ ++ [])
      rw [List.append_nil]
      rfl
  case sequence =>
    match inner with
    | .next repetitions .empty =>
      refine ⟨.sequence (.mk repetitions.meaning), rfl, ?_⟩
      apply congrArg (within _ _)
      change _ = _ ++ []
      rw [List.append_nil]
      exact repetitionEvents_eachFrom _ 1 repetitions.meaning
  case repetition =>
    match inner with
    | .next element (.next cardinality .empty) =>
      refine ⟨.repetition (.mk element.meaning cardinality.meaning), rfl, ?_⟩
      apply congrArg (within _ _)
      change _ = _ ++ (_ ++ [])
      rw [List.append_nil]
      rfl
  case element =>
    match inner with
    | .left (.part group) =>
      exact ⟨.element (.group (build .group group.meaning)), rfl, rfl⟩
    | .right (.left (.part filter)) =>
      exact ⟨.element (.filter (build .filter filter.meaning)), rfl, rfl⟩
    | .right (.right (.part atom)) =>
      exact ⟨.element (.atom (build .text atom.meaning)), rfl, rfl⟩
  case group =>
    match inner with
    | .next opened (.next pattern (.next closed .empty)) =>
      exact ⟨.group pattern.meaning, rfl, rfl⟩
  case filter =>
    match inner with
    | .next excluded (.next opened (.next characters (.next closed .empty))) =>
      refine ⟨.filter ⟨excluded.meaning, characters.meaning⟩, rfl, ?_⟩
      apply congrArg (within _ _)
      exact congrArg (· ++ _) (leaf?_elim .excluded excluded.meaning)
  case character =>
    match inner with
    | .left (.part bounded) =>
      exact ⟨.character (.bounded (build .bounded bounded.meaning)), rfl, rfl⟩
    | .right name => exact ⟨.character (.intrinsic name.meaning), rfl, rfl⟩
  case bounded =>
    match inner with
    | .next glyph (.next extent .empty) =>
      refine ⟨.bounded ⟨glyph.meaning, extent.meaning⟩, rfl, ?_⟩
      apply congrArg (within _ _)
      change _ = [_] ++ (_ ++ [])
      rw [List.append_nil]
      rfl
  case extent =>
    match inner with
    | .next dots (.next glyph .empty) => exact ⟨.extent glyph.meaning, rfl, rfl⟩
  case text =>
    match inner with
    | .left (.part bounded) =>
      exact ⟨.text (.bounded (build .bounded bounded.meaning)), rfl, rfl⟩
    | .right (.left name) => exact ⟨.text (.intrinsic name.meaning), rfl, rfl⟩
    | .right (.right (.left text)) => exact ⟨.text (.literal text.meaning), rfl, rfl⟩
    | .right (.right (.right name)) => exact ⟨.text (.lowercase name.meaning), rfl, rfl⟩
  case cardinality =>
    match inner with
    | .left (.part constraint) =>
      exact ⟨.cardinality (.constrained (build .constrained constraint.meaning)), rfl, rfl⟩
    | .right sign => exact ⟨.cardinality (.quantified sign.meaning), rfl, rfl⟩
  case constrained =>
    match inner with
    | .next opened (.next minimum (.next limit (.next closed .empty))) =>
      exact ⟨.constrained ⟨minimum.meaning, limit.meaning⟩, rfl, rfl⟩
  case limit =>
    match inner with
    | .next dots (.next maximum .empty) =>
      refine ⟨.limit ⟨maximum.meaning⟩, rfl, ?_⟩
      apply congrArg (within _ _)
      change _ = [_] ++ (_ ++ [])
      rw [List.append_nil]
      exact congrArg (mark ".." :: ·) (leaf?_elim .number maximum.meaning)

/-! ## The text of a derivation -/

/-- What is written before a phrase, in so many groups and as the member of a list that comes at
the index. -/
def openingText (production : Production) (groups index : Nat) : List Char :=
  match production with
  | .term | .repetition | .character => if 1 < index then [' '] else []
  | .pattern => if groups = 0 then [' '] else []
  | _ => []

/-- In how many groups the parts of a phrase stand. -/
def groupsWithin (production : Production) (groups : Nat) : Nat :=
  if production = .group then groups + 1 else groups

/-- What is written for a derivation, in so many groups and, if it is one of the members of a list,
at the index. -/
def Derivation.layout {form : Form} : Derivation form → (groups index : Nat) → List Char
  | token leaf _, _, _ | mark leaf _, _, _ => (Formatter.leafText leaf.kind leaf.text).toList
  | bullet .., _, _ | empty, _, _ | absent, _, _ | done, _, _ => []
  | @part production inner, groups, index =>
    openingText production groups index ++ inner.layout (groupsWithin production groups) 1
  | next front back, groups, _ => front.layout groups 1 ++ back.layout groups 1
  | left inner, groups, _ | right inner, groups, _ | present inner, groups, _ =>
    inner.layout groups 1
  | more first others, groups, index => first.layout groups index ++ others.layout groups (index + 1)
  | several first others, groups, _ => first.layout groups 1 ++ others.layout groups 2

/-- Forms of phrases within one line: they hold no newline, and phrases within one line only. -/
def isFlat : Form → Bool
  | .token kind => kind != .newline
  | .mark _ | .empty => true
  | .bullet => false
  | .part production => isInline production
  | .next first rest => isFlat first && isFlat rest
  | .either left right => isFlat left && isFlat right
  | .optional form | .many form | .several form => isFlat form

theorem isFlat_form {production : Production} (inline : isInline production = true) :
    isFlat (form production) = true := by
  revert inline
  cases production <;> decide

theorem opened_groups (node : Node) (rank : Option Rank) (formatter : Formatter) :
    (formatter.opened node rank).groups = groupsWithin node.production formatter.groups := by
  cases node
  case pattern pattern =>
    rw [Formatter.opened]
    split
    · rfl
    · rfl
  all_goals rfl

/-- A phrase within one line is written by what comes before it and what its parts are written as. -/
theorem foldl_within {node : Node} (inline : isInline node.production = true) (rank : Rank)
    (formatter : Formatter) {events : List Event} {text : List Char}
    (written : ∀ inner : Formatter,
      inner.groups = groupsWithin node.production formatter.groups →
        events.foldl Formatter.step inner = inner.append text) :
    (within node (if isRanked node.production then some rank else none) events).foldl
        Formatter.step formatter =
      formatter.append (openingText node.production formatter.groups rank.index ++ text) := by
  rw [within, List.foldl_cons, List.foldl_append, Formatter.step, written _ (opened_groups ..),
    List.foldl_cons, List.foldl_nil, Formatter.step]
  cases node
  case document | notice | rule | definition | multiline | line | inlined | expression =>
    cases inline
  case term | repetition | character =>
    simp [Node.production, isRanked, openingText, Formatter.opened, Formatter.closed,
      Formatter.separator, apply_ite String.toList]
  case pattern =>
    rw [← Formatter.append_append]
    by_cases outside : formatter.groups = 0
    · simp [Node.production, openingText, Formatter.opened, Formatter.closed, outside]
    · simp [Node.production, openingText, Formatter.opened, Formatter.closed, outside]
  all_goals rfl

/-- A walk along a form within one line writes what the derivation is written as. -/
theorem foldl_formEvents {form : Form} (derivation : Derivation form) (flat : isFlat form = true)
    (rank : Rank) (formatter : Formatter) :
    (formEvents rank form derivation.meaning).foldl Formatter.step formatter =
      formatter.append (derivation.layout formatter.groups rank.index) := by
  induction derivation generalizing rank formatter with
  | token leaf fits =>
      subst fits
      rfl
  | mark leaf fits =>
      rw [Derivation.layout, fits.1, fits.2]
      rfl
  | bullet => cases flat
  | @part production inner ih =>
      obtain ⟨node, ofProduction, walked⟩ := phraseEvents_build flat rank inner
      subst ofProduction
      have written := foldl_within flat rank formatter fun within groups =>
        (ih (isFlat_form flat) ⟨1, 1⟩ within).trans (by rw [groups])
      exact (congrArg (List.foldl _ formatter) walked).trans written
  | empty => exact (formatter.append_nil).symm
  | next front back front_ih back_ih =>
      obtain ⟨frontFlat, backFlat⟩ := Bool.and_eq_true_iff.mp flat
      -- The front closes the groups that it opens, so the back is written in as many as the front.
      change (formEvents (startRank _ _) _ _ ++ formEvents (startRank _ _) _ _).foldl _ _ = _
      rw [List.foldl_append, front_ih frontFlat, back_ih backFlat, Formatter.append_groups,
        Formatter.append_append, startRank_index, startRank_index]
      rfl
  | left inner ih => exact ih (Bool.and_eq_true_iff.mp flat).1 ⟨1, 1⟩ formatter
  | right inner ih => exact ih (Bool.and_eq_true_iff.mp flat).2 ⟨1, 1⟩ formatter
  | absent => exact (formatter.append_nil).symm
  | present inner ih => exact ih flat ⟨1, 1⟩ formatter
  | done => exact (formatter.append_nil).symm
  | more first others first_ih others_ih =>
      change (formEvents rank _ _ ++ formEvents ⟨rank.index + 1, rank.size⟩ (.many _) _).foldl _ _ = _
      rw [List.foldl_append, first_ih flat, others_ih flat, Formatter.append_groups,
        Formatter.append_append]
      rfl
  | several first others first_ih others_ih =>
      change (formEvents ⟨1, _⟩ _ _ ++ formEvents ⟨2, _⟩ (.many _) _).foldl _ _ = _
      rw [List.foldl_append, first_ih flat, others_ih flat, Formatter.append_groups,
        Formatter.append_append]
      rfl

end Grammar
end GrammarBook
