import GrammarBook.Proofs.Layout.RoundTrip
import GrammarBook.Proofs.Reading.Rejection

namespace GrammarBook

open Grammar

/-!
# Leaves of a walk

The walk through a document that was parsed shows every token of the source once, apart from the
newlines and the end, which no document keeps. The expressions are shown in the order of their names:
the tokens from one name to the next make up a block, and the blocks are sorted. All other tokens are
shown in the order of the source.
-/

/-- A token without its location. -/
abbrev Leaf := Kind × String

/-- The leaf that an event shows. -/
def Walk.Event.shown? : Event → Option Leaf
  | .leaf kind text => some (kind, text)
  | _ => none

/-- The leaves that events show. -/
def Walk.leaves (events : List Event) : List Leaf := events.filterMap Event.shown?

/-- The token is kept in a document. -/
def Token.isKept (token : Token) : Bool := token.kind != .newline && token.kind != .eof

def Token.leaf (token : Token) : Leaf := (token.kind, token.text)

/-- The leaves of the tokens that are kept in a document. -/
def keptLeaves (tokens : List Token) : List Leaf := (tokens.filter Token.isKept).map Token.leaf

/-! ## Blocks -/

/-- The delimiter behind the name of a rule or an expression. -/
def colon : Leaf := (.delimiter, ":")

/-- Cuts leaves into those before the first expression and a block for each expression. An expression
begins with a name that has a colon behind it. -/
def cutBlocks : List Leaf → List Leaf × List (List Leaf)
  | [] => ([], [])
  | first :: rest =>
    let cut := cutBlocks rest
    if first.1 = .lowercase ∧ rest.head? = some colon then ([], (first :: cut.1) :: cut.2)
    else (first :: cut.1, cut.2)

/-- The name that a block begins with. -/
def blockName (block : List Leaf) : String := (block.head?.map (·.2)).getD ""

/-- The leaves with their blocks in the order of the names; blocks of one name stay as they were. -/
def withSortedBlocks (leaves : List Leaf) : List Leaf :=
  (cutBlocks leaves).1 ++
    ((cutBlocks leaves).2.mergeSort fun left right => blockName left ≤ blockName right).flatten

theorem cutBlocks_other {leaf : Leaf} (other : leaf.1 ≠ .lowercase) (rest : List Leaf) :
    cutBlocks (leaf :: rest) = (leaf :: (cutBlocks rest).1, (cutBlocks rest).2) := by
  rw [cutBlocks, if_neg fun begins => other begins.1]

theorem cutBlocks_name (name : String) (rest : List Leaf) :
    cutBlocks ((.lowercase, name) :: colon :: rest) =
      ([], ((.lowercase, name) :: colon :: (cutBlocks rest).1) :: (cutBlocks rest).2) := by
  rw [cutBlocks, if_pos ⟨rfl, rfl⟩, cutBlocks_other (by decide)]

/-- No leaf is lost by cutting. -/
theorem cutBlocks_flatten (leaves : List Leaf) :
    (cutBlocks leaves).1 ++ (cutBlocks leaves).2.flatten = leaves := by
  induction leaves with
  | nil => rfl
  | cons first rest ih =>
      rw [cutBlocks]
      split
      · exact congrArg (first :: ·) ih
      · exact congrArg (first :: ·) ih

/-- The leaves belong to no block, and blocks behind them are cut as they are on their own. -/
def IsFront (front : List Leaf) : Prop :=
  ∀ later : List Leaf, later.head? ≠ some colon → (front ++ later).head? ≠ some colon ∧
    cutBlocks (front ++ later) = (front ++ (cutBlocks later).1, (cutBlocks later).2)

theorem isFront_nil : IsFront [] := fun _ apart => ⟨apart, rfl⟩

theorem IsFront.append {front back : List Leaf} (first : IsFront front) (second : IsFront back) :
    IsFront (front ++ back) := by
  intro later apart
  obtain ⟨between, cutBack⟩ := second later apart
  obtain ⟨before, cutFront⟩ := first (back ++ later) between
  rw [List.append_assoc]
  exact ⟨before, by rw [cutFront, cutBack, List.append_assoc]⟩

theorem isFront_leaf {leaf : Leaf} (other : leaf ≠ colon) : IsFront [leaf] := by
  intro later apart
  refine ⟨fun same => other (Option.some.inj same), ?_⟩
  rw [List.singleton_append, cutBlocks, if_neg fun begins => apart begins.2]
  rfl

theorem isFront_of_not_mem {leaves : List Leaf} (absent : colon ∉ leaves) : IsFront leaves := by
  induction leaves with
  | nil => exact isFront_nil
  | cons leaf leaves ih =>
      obtain ⟨other, others⟩ := not_or.mp (mt List.mem_cons.mpr absent)
      exact (isFront_leaf (Ne.symm other)).append (ih others)

/-- The name of a rule begins no block. -/
theorem isFront_rule {name : String} {leaves : List Leaf} (absent : colon ∉ leaves) :
    IsFront ((.uppercase, name) :: colon :: leaves) := by
  intro later apart
  have cut := (isFront_of_not_mem absent later apart).2
  refine ⟨fun same => (by cases same), ?_⟩
  -- There is a colon behind the name, but the name is not one of an expression.
  rw [List.cons_append, List.cons_append, cutBlocks_other (Kind.noConfusion),
    cutBlocks_other (by decide), cut]
  rfl

/-- The leaves of one expression. -/
def IsBlock (block : List Leaf) : Prop :=
  ∃ name leaves, block = (.lowercase, name) :: colon :: leaves ∧ colon ∉ leaves

theorem cutBlocks_blocks {blocks : List (List Leaf)} (all : ∀ block ∈ blocks, IsBlock block) :
    blocks.flatten.head? ≠ some colon ∧ cutBlocks blocks.flatten = ([], blocks) := by
  induction blocks with
  | nil => exact ⟨nofun, rfl⟩
  | cons block blocks ih =>
      obtain ⟨⟨name, leaves, rfl, absent⟩, others⟩ := List.forall_mem_cons.mp all
      obtain ⟨apart, cut⟩ := ih others
      have inner := (isFront_of_not_mem absent _ apart).2
      refine ⟨fun same => (by cases same), ?_⟩
      rw [List.flatten_cons, List.cons_append, List.cons_append, cutBlocks_name, inner, cut,
        List.append_nil]

/-! ## Leaves of phrases -/

namespace Walk

theorem leaves_append (front back : List Event) :
    leaves (front ++ back) = leaves front ++ leaves back :=
  List.filterMap_append

theorem leaves_within (node : Node) (rank : Option Rank) (events : List Event) :
    leaves (within node rank events) = leaves events := by
  rw [within, leaves, List.filterMap_cons_none rfl]
  exact (leaves_append events _).trans (List.append_nil _)

theorem leaves_eachFrom {α : Type} {walk : Rank → α → List Event} {shown : α → List Leaf}
    (one : ∀ rank member, leaves (walk rank member) = shown member) (members : List α)
    (size index : Nat) : leaves (eachFrom size walk index members) = members.flatMap shown := by
  induction members generalizing index with
  | nil => rfl
  | cons member members ih =>
      rw [eachFrom, leaves_append, one, ih, List.flatMap_cons]

end Walk

open Walk

theorem keptLeaves_append (front back : List Token) :
    keptLeaves (front ++ back) = keptLeaves front ++ keptLeaves back := by
  rw [keptLeaves, List.filter_append, List.map_append]
  rfl

theorem keptLeaves_beside {front back : List Token} {first second : List Leaf}
    (atFront : keptLeaves front = first) (atBack : keptLeaves back = second) :
    keptLeaves (front ++ back) = first ++ second := by
  rw [keptLeaves_append, atFront, atBack]

theorem keptLeaves_cons {token : Token} (kept : token.isKept = true) (tokens : List Token) :
    keptLeaves (token :: tokens) = token.leaf :: keptLeaves tokens := by
  rw [keptLeaves, List.filter_cons_of_pos kept]
  rfl

theorem keptLeaves_cons_of_not {token : Token} (dropped : token.isKept = false)
    (tokens : List Token) : keptLeaves (token :: tokens) = keptLeaves tokens := by
  rw [keptLeaves, List.filter_cons_of_neg (by simp [dropped])]
  rfl

/-- The events show what is kept of the tokens, and there is no colon in it. -/
structure Meets (events : List Event) (tokens : List Token) : Prop where
  leaves_eq : leaves events = keptLeaves tokens
  not_mem : colon ∉ keptLeaves tokens

section Meets

variable {events later : List Event} {tokens others : List Token}

theorem meets_nil : Meets [] [] := ⟨rfl, List.not_mem_nil⟩

theorem Meets.append (first : Meets events tokens) (second : Meets later others) :
    Meets (events ++ later) (tokens ++ others) where
  leaves_eq := by rw [leaves_append, keptLeaves_append, first.leaves_eq, second.leaves_eq]
  not_mem := by
    rw [keptLeaves_append, List.mem_append, not_or]
    exact ⟨first.not_mem, second.not_mem⟩

/-- Nothing stands behind the last part of a phrase. -/
theorem Meets.last (met : Meets events tokens) : Meets events (tokens ++ []) := by
  rwa [List.append_nil]

theorem Meets.within {node : Node} {rank : Option Rank} (inner : Meets events tokens) :
    Meets (within node rank events) tokens :=
  ⟨(leaves_within node rank events).trans inner.leaves_eq, inner.not_mem⟩

theorem meets_leaf {token : Token} (kept : token.isKept = true) (other : token.leaf ≠ colon) :
    Meets [.leaf token.kind token.text] [token] where
  leaves_eq := (keptLeaves_cons kept []).symm
  not_mem := by
    rw [keptLeaves_cons kept, List.mem_cons, not_or]
    exact ⟨Ne.symm other, List.not_mem_nil⟩

theorem meets_mark {text : String} {token : Token} (fits : IsMark text token) (other : text ≠ ":") :
    Meets [mark text] [token] := by
  obtain ⟨kind, same⟩ := fits
  have kept : token.isKept = true := by rw [Token.isKept, kind]; rfl
  have apart : token.leaf ≠ colon := fun alike => other (same ▸ congrArg Prod.snd alike)
  have met := meets_leaf kept apart
  rwa [kind, same] at met

end Meets

/-- Forms of what is shown as it is written, apart from the colon behind a name. -/
def isPlain : Form → Bool
  | .token kind => kind != .newline && kind != .eof && kind != .delimiter
  | .mark text => text != ":"
  | .empty => true
  | .bullet => false
  | .part production => isInline production
  | .next first rest => isPlain first && isPlain rest
  | .either left right => isPlain left && isPlain right
  | .optional form | .many form | .several form => isPlain form

theorem isPlain_form {production : Production} (inline : isInline production = true) :
    isPlain (form production) = true := by
  revert inline
  cases production <;> decide

/-- The walk along a phrase within one line meets its tokens. -/
theorem meets_formEvents {form : Form} (derivation : Derivation form) (plain : isPlain form = true)
    (rank : Rank) : Meets (formEvents rank form derivation.meaning) derivation.tokens := by
  induction derivation generalizing rank with
  | @token kind leaf fits =>
      subst fits
      rw [isPlain, Bool.and_eq_true, bne_iff_ne] at plain
      exact meets_leaf plain.1 fun same => plain.2 (congrArg Prod.fst same)
  | mark leaf fits => exact meets_mark fits (bne_iff_ne.mp plain)
  | bullet => cases plain
  | @part production inner ih =>
      -- The walk through a node is the walk along its form, between entering and leaving it.
      obtain ⟨node, _, walked⟩ := phraseEvents_build plain rank inner
      change Meets (phraseEvents rank production (build production inner.meaning)) inner.tokens
      rw [walked]
      exact (ih (isPlain_form plain) ⟨1, 1⟩).within
  | empty => exact meets_nil
  | next front back front_ih back_ih =>
      obtain ⟨frontPlain, backPlain⟩ := Bool.and_eq_true_iff.mp plain
      exact (front_ih frontPlain _).append (back_ih backPlain _)
  | left inner ih => exact ih (Bool.and_eq_true_iff.mp plain).1 ⟨1, 1⟩
  | right inner ih => exact ih (Bool.and_eq_true_iff.mp plain).2 ⟨1, 1⟩
  | absent => exact meets_nil
  | present inner ih => exact ih plain ⟨1, 1⟩
  | done => exact meets_nil
  | more first others first_ih others_ih =>
      exact (first_ih plain rank).append (others_ih plain ⟨rank.index + 1, rank.size⟩)
  | @several form first others first_ih others_ih =>
      exact (first_ih plain ⟨1, _⟩).append (others_ih plain ⟨2, List.length others.meaning + 1⟩)

theorem meets_note : (note : Derivation (.optional (.token .note))) →
    Meets (leaf? .note note.meaning) note.tokens
  | .absent => meets_nil
  | .present note => meets_formEvents note rfl ⟨1, 1⟩

theorem keptLeaves_newline {newline : Token} (fits : newline.kind = .newline) (tokens : List Token) :
    keptLeaves (newline :: tokens) = keptLeaves tokens := by
  have dropped : newline.isKept = false := by rw [Token.isKept, fits]; rfl
  exact keptLeaves_cons_of_not dropped tokens

theorem keptLeaves_newlines :
    (newlines : Derivation (.many (.token .newline))) → keptLeaves newlines.tokens = []
  | .done => rfl
  | .more (.token _ fits) others => (keptLeaves_newline fits _).trans (keptLeaves_newlines others)

theorem keptLeaves_lineEnd :
    (newlines : Derivation (.several (.token .newline))) → keptLeaves newlines.tokens = []
  | .several first others => keptLeaves_newlines (.more first others)

/-- Newlines behind a phrase are not shown. -/
theorem Meets.endLine {events : List Event} {tokens : List Token} (met : Meets events tokens)
    (newlines : Derivation (.several (.token .newline))) :
    Meets events (tokens ++ (newlines.tokens ++ [])) := by
  have same : keptLeaves (tokens ++ (newlines.tokens ++ [])) = keptLeaves tokens := by
    rw [keptLeaves_append, List.append_nil, keptLeaves_lineEnd, List.append_nil]
  exact ⟨met.leaves_eq.trans same.symm, same ▸ met.not_mem⟩

/-! ## Definitions -/

theorem meets_line (rank : Rank) : (line : Derivation (form .line)) →
    Meets (Line.events rank (build .line line.meaning)) line.tokens
  | .next (.bullet newline dash ends fits) (.next name (.next note .empty)) => by
    have parts : Meets (mark "-" :: (Identifier.events name.meaning ++ leaf? .note note.meaning))
        (dash :: (name.tokens ++ (note.tokens ++ []))) :=
      (meets_mark fits (by decide)).append
        ((meets_formEvents name rfl ⟨1, 1⟩).append (meets_note note).last)
    have same := keptLeaves_newline ends (dash :: (name.tokens ++ (note.tokens ++ [])))
    exact ⟨parts.within.leaves_eq.trans same.symm, same ▸ parts.not_mem⟩

theorem meets_lines (size : Nat) : (lines : Derivation (.many (.part .line))) → (index : Nat) →
    Meets (eachFrom size Line.events index lines.meaning) lines.tokens
  | .done, _ => meets_nil
  | .more (.part line) others, index =>
    (meets_line ⟨index, size⟩ line).append (meets_lines size others (index + 1))

theorem meets_inlined : (inlined : Derivation (form .inlined)) →
    Meets (Definition.events (build .inlined inlined.meaning)) inlined.tokens
  | .next terms (.next note .empty) => by
    have along := meets_formEvents terms rfl ⟨1, 1⟩
    have row : Meets (Term.eventsFrom (List.length terms.meaning) 1 terms.meaning) terms.tokens :=
      ⟨(congrArg leaves (termEvents_eachFrom ..)).trans along.leaves_eq, along.not_mem⟩
    exact (row.append (meets_note note).last).within.within

theorem meets_definition : (definition : Derivation (form .definition)) →
    Meets (Definition.events (build .definition definition.meaning)) definition.tokens
  | .left (.part (.next (.several first others) .empty)) => by
    have lines := meets_lines (List.length others.meaning + 1) (.more first others) 1
    exact lines.last.within.within
  | .right (.part inlined) => meets_inlined inlined

/-! ## Rules and expressions -/

/-- What is kept of a name with its colon and of the tokens behind it. -/
theorem keptLeaves_named {kind : Kind} {name sign : Token} (isName : name.kind = kind)
    (kept : name.isKept = true) (isColon : IsMark ":" sign) (tokens : List Token) :
    keptLeaves (name :: sign :: tokens) = (kind, name.text) :: colon :: keptLeaves tokens := by
  have signKept : sign.isKept = true := by rw [Token.isKept, isColon.1]; rfl
  rw [keptLeaves_cons kept, keptLeaves_cons signKept, Token.leaf, Token.leaf, isName, isColon.1,
    isColon.2, colon]

/-- A rule shows its tokens, and no block begins in it. -/
theorem rule_leaves (rank : Rank) : (rule : Derivation (form .rule)) →
    leaves (Rule.events rank (build .rule rule.meaning)) = keptLeaves rule.tokens ∧
      IsFront (keptLeaves rule.tokens)
  | .next (.token name isName) (.next (.mark sign isColon) (.next (.part definition)
      (.next newlines .empty))) => by
    obtain ⟨same, absent⟩ := (meets_definition definition).endLine newlines
    have nameKept : name.isKept = true := by rw [Token.isKept, isName]; rfl
    have kept := keptLeaves_named isName nameKept isColon
      (definition.tokens ++ (newlines.tokens ++ []))
    have shown := congrArg (fun others => (Kind.uppercase, name.text) :: colon :: others) same
    exact ⟨(leaves_within ..).trans (shown.trans kept.symm), kept ▸ isFront_rule absent⟩

theorem rules_leaves (size : Nat) : (rules : Derivation (.many (.part .rule))) → (index : Nat) →
    leaves (eachFrom size Rule.events index rules.meaning) = keptLeaves rules.tokens ∧
      IsFront (keptLeaves rules.tokens)
  | .done, _ => ⟨rfl, isFront_nil⟩
  | .more (.part rule) others, index => by
    obtain ⟨same, front⟩ := rule_leaves ⟨index, size⟩ rule
    obtain ⟨sameOthers, frontOthers⟩ := rules_leaves size others (index + 1)
    have kept : keptLeaves (rule.tokens ++ others.tokens) = _ := keptLeaves_append ..
    refine ⟨?_, kept ▸ front.append frontOthers⟩
    rw [← same, ← sameOthers] at kept
    exact (leaves_append ..).trans kept.symm

/-- The leaves that an expression shows. -/
def Expression.leaves (expression : Expression) : List Leaf :=
  (.lowercase, expression.name) :: colon ::
    Walk.leaves (expression.pattern.events ++ leaf? .note expression.note)

theorem Expression.leaves_events (rank : Rank) (expression : Expression) :
    Walk.leaves (expression.events rank) = expression.leaves :=
  leaves_within ..

/-- An expression shows its tokens, which make up a block. -/
theorem expression_leaves : (expression : Derivation (form .expression)) →
    Expression.leaves (build .expression expression.meaning) = keptLeaves expression.tokens ∧
      IsBlock (keptLeaves expression.tokens)
  | .next (.token name isName) (.next (.mark sign isColon) (.next pattern (.next note
      (.next newlines .empty)))) => by
    have parts : Meets (Pattern.events pattern.meaning ++ leaf? .note note.meaning)
        (pattern.tokens ++ (note.tokens ++ (newlines.tokens ++ []))) :=
      (meets_formEvents pattern rfl ⟨1, 1⟩).append ((meets_note note).endLine newlines)
    obtain ⟨same, absent⟩ := parts
    have nameKept : name.isKept = true := by rw [Token.isKept, isName]; rfl
    have kept := keptLeaves_named isName nameKept isColon
      (pattern.tokens ++ (note.tokens ++ (newlines.tokens ++ [])))
    have shown := congrArg (fun others => (Kind.lowercase, name.text) :: colon :: others) same
    exact ⟨shown.trans kept.symm, kept ▸ ⟨name.text, _, rfl, absent⟩⟩

theorem expressions_leaves : (expressions : Derivation (.many (.part .expression))) →
    (List.map Expression.leaves expressions.meaning).flatten = keptLeaves expressions.tokens ∧
      ∀ block ∈ List.map Expression.leaves expressions.meaning, IsBlock block
  | .done => ⟨rfl, fun _ absent => absurd absent List.not_mem_nil⟩
  | .more (.part expression) others => by
    obtain ⟨same, isBlock⟩ := expression_leaves expression
    obtain ⟨sameOthers, areBlocks⟩ := expressions_leaves others
    have kept : keptLeaves (expression.tokens ++ others.tokens) = _ := keptLeaves_append ..
    rw [← same, ← sameOthers] at kept
    exact ⟨kept.symm, List.forall_mem_cons.mpr ⟨same ▸ isBlock, areBlocks⟩⟩

/-! ## Documents -/

/-- The leaves that a document shows before those of its expressions. -/
def Document.frontLeaves (document : Document) : List Leaf :=
  (.comment, document.notice) :: (.comment, document.leading) ::
    (Walk.leaves (each Rule.events document.rules) ++ [(.comment, document.trailing)])

theorem Document.frontLeaves_append (document : Document) (later : List Leaf) :
    document.frontLeaves ++ later =
      (.comment, document.notice) :: (.comment, document.leading) ::
        (Walk.leaves (each Rule.events document.rules) ++ (.comment, document.trailing) :: later) := by
  rw [frontLeaves, List.cons_append, List.cons_append, List.append_assoc, List.singleton_append]

theorem Document.leaves_events (document : Document) :
    Walk.leaves document.events =
      document.frontLeaves ++ (document.expressions.map Expression.leaves).flatten := by
  have shown : Walk.leaves (each Expression.events document.expressions) =
      (document.expressions.map Expression.leaves).flatten :=
    (leaves_eachFrom Expression.leaves_events _ _ _).trans (List.flatMap_def ..)
  rw [frontLeaves_append, ← shown, Document.events, leaves_within, leaves_append, leaves_within]
  have behind := leaves_append (each Rule.events document.rules)
    (.leaf .comment document.trailing :: each Expression.events document.expressions)
  exact congrArg (fun others => (Kind.comment, document.notice) :: (Kind.comment, document.leading) ::
    others) behind

/-- What is kept of a comment, of the newlines behind it and of the tokens behind these. -/
theorem keptLeaves_comment {comment : Token} (isComment : comment.kind = .comment)
    (newlines : Derivation (.many (.token .newline))) {tokens : List Token} {later : List Leaf}
    (behind : keptLeaves tokens = later) :
    keptLeaves ([comment] ++ (newlines.tokens ++ tokens)) = (.comment, comment.text) :: later := by
  have kept : comment.isKept = true := by rw [Token.isKept, isComment]; rfl
  rw [List.singleton_append, keptLeaves_cons kept, keptLeaves_append, keptLeaves_newlines, behind,
    Token.leaf, isComment, List.nil_append]

theorem keptLeaves_eof {eof : Token} (isEof : eof.kind = .eof) : keptLeaves [eof] = [] := by
  have dropped : eof.isKept = false := by rw [Token.isKept, isEof]; rfl
  exact keptLeaves_cons_of_not dropped []

/-- What is kept of the tokens of a document is cut into the blocks of its expressions. -/
theorem document_leaves : (derivation : Derivation (form .document)) →
    keptLeaves derivation.tokens = (build .document derivation.meaning).frontLeaves ++
        ((build .document derivation.meaning).expressions.map Expression.leaves).flatten ∧
      IsFront (build .document derivation.meaning).frontLeaves ∧
      ∀ block ∈ (build .document derivation.meaning).expressions.map Expression.leaves, IsBlock block
  | .next (.part (.next (.token notice isNotice) .empty)) (.next one (.next (.token leading isLeading)
      (.next two (.next (.several rule rules) (.next (.token trailing isTrailing) (.next three
      (.next (.several expression expressions) (.next (.token eof isEof) .empty)))))))) => by
    obtain ⟨shownRules, frontRules⟩ :=
      rules_leaves (List.length rules.meaning + 1) (.more rule rules) 1
    obtain ⟨shownExpressions, areBlocks⟩ := expressions_leaves (.more expression expressions)
    have keptExpressions := (keptLeaves_beside shownExpressions.symm (keptLeaves_eof isEof)).trans
      (List.append_nil _)
    have keptRules := keptLeaves_beside shownRules.symm
      (keptLeaves_comment isTrailing three keptExpressions)
    have kept := keptLeaves_comment isNotice one (keptLeaves_comment isLeading two keptRules)
    have isFront (text : String) : IsFront [(.comment, text)] := isFront_leaf nofun
    refine ⟨?_, ?_, areBlocks⟩
    · exact kept.trans (Document.frontLeaves_append ⟨notice.text, leading.text,
        (Derivation.more rule rules).meaning, trailing.text, _⟩ _).symm
    · exact (isFront notice.text).append
        ((isFront leading.text).append ((shownRules ▸ frontRules).append (isFront trailing.text)))

theorem cutBlocks_document (derivation : Derivation (form .document)) :
    cutBlocks (keptLeaves derivation.tokens) =
      ((build .document derivation.meaning).frontLeaves,
        (build .document derivation.meaning).expressions.map Expression.leaves) := by
  obtain ⟨kept, front, areBlocks⟩ := document_leaves derivation
  obtain ⟨apart, cut⟩ := cutBlocks_blocks areBlocks
  rw [kept, (front _ apart).2, cut, List.append_nil]

/-- The name of an expression is that of its block, so blocks are sorted as the expressions are. -/
theorem map_sortExpressions (expressions : List Expression) :
    (Reading.sortExpressions expressions).map Expression.leaves =
      (expressions.map Expression.leaves).mergeSort fun left right =>
        blockName left ≤ blockName right :=
  List.map_mergeSort fun _ _ _ _ => rfl

/-- A document that is derived shows what is kept of the tokens, with the blocks sorted. -/
theorem leaves_of_derivation {derivation : Derivation (form .document)} {document : Document}
    (means : Reading.IsDocumentOf derivation document) :
    Walk.leaves document.events = withSortedBlocks (keptLeaves derivation.tokens) := by
  rw [Reading.isDocumentOf_iff.mp means, Document.leaves_events, withSortedBlocks,
    cutBlocks_document, ← map_sortExpressions]
  rfl

/-- Leaves with their blocks in order already are left as they are. -/
theorem withSortedBlocks_of_ascending {leaves : List Leaf}
    (ascending : (cutBlocks leaves).2.Pairwise fun left right => blockName left ≤ blockName right) :
    withSortedBlocks leaves = leaves := by
  rw [withSortedBlocks, List.mergeSort_of_pairwise (ascending.imp decide_eq_true),
    cutBlocks_flatten]

/-- A walk through what was parsed of a source shows the tokens of the source, each of them once,
apart from newlines and the end, with the blocks of the expressions in the order of their names. Where
the source has them in that order, the walk shows the tokens as they were scanned. -/
theorem walk_shows_source (parser : Parser) (source : String) (document : Document)
    (read : parser.parse source = .ok document) :
    Recorder.transcript document none = (.ok (), document.events) ∧
    Walk.leaves document.events = withSortedBlocks (keptLeaves (Token.scan source)) ∧
    ((cutBlocks (keptLeaves (Token.scan source))).2.mergeSort fun left right =>
      blockName left ≤ blockName right) = document.expressions.map Expression.leaves ∧
    ((cutBlocks (keptLeaves (Token.scan source))).2.Pairwise
        (fun left right => blockName left ≤ blockName right) →
      Walk.leaves document.events = keptLeaves (Token.scan source)) := by
  obtain ⟨rest, reads⟩ := (Parser.parse_eq_ok_iff parser source document).mp read
  obtain ⟨derivation, taken, means⟩ := (Reading.isStream_scan source).exists_derivation reads
  have shown := leaves_of_derivation means
  rw [← taken]
  refine ⟨transcript_whole document, shown, ?_, fun ascending => ?_⟩
  · rw [Reading.isDocumentOf_iff.mp means, cutBlocks_document, ← map_sortExpressions]
    rfl
  · rw [shown, withSortedBlocks_of_ascending ascending]

/-- The walk goes through the expressions of the source in another order, and through those of its
canonical text in theirs. -/
theorem smallSource_shown :
    (Walk.leaves Reading.smallDocument.events = withSortedBlocks (keptLeaves (Token.scan smallSource)) ∧
      Walk.leaves Reading.smallDocument.events ≠ keptLeaves (Token.scan smallSource)) ∧
      Walk.leaves Reading.smallDocument.events = keptLeaves (Token.scan smallText) := by
  have atSource := walk_shows_source {} smallSource Reading.smallDocument (parse_smallSource {})
  have atText := walk_shows_source {} smallText Reading.smallDocument (parse_smallText {})
  exact ⟨⟨atSource.2.1, by decide +kernel⟩, atText.2.2.2 (by decide +kernel)⟩

end GrammarBook
