import GrammarBook.Proofs.Layout.Validated

namespace GrammarBook

open Walk

/-!
# Spelling of what was scanned

A scanner cuts tokens off the front of a text, and a validator matches the whole text of a leaf. What
a scanner has cut off is matched, and a document that was parsed has no other leaves; so a validator
may refuse it for what it says, and never for how it is spelled.
-/

namespace Walk

variable {σ α β : Type} {sort : Fault → Prop}

/-- Work that stops with no other faults, whatever state it starts in. -/
def Follow.StopsOnlyWith (sort : Fault → Prop) (work : Follow σ α) : Prop :=
  ∀ before fault after, work.runOn before = (.error fault, after) → sort fault

theorem Follow.StopsOnlyWith.bind {first : Follow σ α} {next : α → Follow σ β}
    (one : first.StopsOnlyWith sort) (others : ∀ value, (next value).StopsOnlyWith sort) :
    (first >>= next).StopsOnlyWith sort := by
  intro before fault after failed
  rcases Follow.runOn_bind_cases first next before with
    ⟨value, middle, _, whole⟩ | ⟨earlier, stopped, ran, whole⟩
  · rw [whole] at failed
    exact others value middle fault after failed
  · rw [whole] at failed
    cases failed
    exact one before fault after ran

/-- A walk stops with the faults of its events. -/
theorem follow_stopsOnlyWith {visit : Event → Follow σ Unit} {blames : Event → Fault → Prop}
    (one : ∀ event, (visit event).StopsOnlyWith (blames event)) (events : List Event) :
    (follow visit events).StopsOnlyWith fun fault => ∃ event ∈ events, blames event fault := by
  induction events with
  | nil => exact fun _ _ _ failed => by cases failed
  | cons event events ih =>
      refine Follow.StopsOnlyWith.bind ?_ fun _ before fault after failed => ?_
      · exact fun before fault after failed =>
          ⟨event, List.mem_cons_self, one event before fault after failed⟩
      · rcases ih before fault after failed with ⟨later, member, blamed⟩
        exact ⟨later, List.mem_cons_of_mem _ member, blamed⟩

end Walk

namespace Validator

/-! ## Faults of spelling -/

/-- The fault is none of spelling, or that of the event, which is a leaf that is none of its kind. -/
def Blames (event : Event) (fault : Fault) : Prop :=
  ∀ kind text, fault = .semantic (.misspelled kind text) →
    event = .leaf kind text ∧ kind.accepts text = false

variable {event : Event}

theorem blames_of_ne {violation : Violation}
    (other : ∀ kind text, violation ≠ .misspelled kind text) :
    Blames event (.semantic violation) := fun kind text same =>
  absurd (Fault.semantic.inj same) (other kind text)

theorem stopWith_stopsOnlyWith {violation : Option Violation}
    (other : ∀ kind text, violation ≠ some (.misspelled kind text)) :
    (stopWith violation).StopsOnlyWith (Blames event) := by
  intro before fault after failed
  cases violation with
  | none => cases failed
  | some violation =>
      cases failed
      exact blames_of_ne fun kind text same => other kind text (congrArg some same)

theorem modify_stopsOnlyWith (change : Validator → Validator) :
    (modify change : Follow Validator Unit).StopsOnlyWith (Blames event) :=
  fun _ _ _ failed => by cases failed

theorem checkSpelling_stopsOnlyWith (kind : Kind) (text : String) :
    (checkSpelling kind text).StopsOnlyWith (Blames (.leaf kind text)) := by
  intro before fault after failed
  rw [checkSpelling] at failed
  split at failed
  · cases failed
  · next refused =>
    cases failed
    rintro _ _ ⟨⟩
    exact ⟨rfl, Bool.eq_false_iff.mpr refused⟩

theorem checkLeaf_stopsOnlyWith (kind : Kind) (text : String) :
    (checkLeaf kind text).StopsOnlyWith (Blames (.leaf kind text)) := by
  refine (checkSpelling_stopsOnlyWith kind text).bind fun _ before fault after failed => ?_
  rw [Follow.runOn_get_bind] at failed
  split at failed
  · cases failed
    exact blames_of_ne nofun
  · cases failed

theorem unlessThen_stopsOnlyWith {condition : Prop} [Decidable condition] {violation : Violation}
    {change : Validator → Validator} (other : ∀ kind text, violation ≠ .misspelled kind text) :
    Follow.StopsOnlyWith (Blames event) (do
      if condition then stop violation
      modify change) := by
  intro before fault after failed
  split at failed
  · cases failed
    exact blames_of_ne other
  · cases failed

theorem defineRule_stopsOnlyWith (name : String) :
    (defineRule name).StopsOnlyWith (Blames event) :=
  fun before => unlessThen_stopsOnlyWith (by nofun) before

theorem defineExpression_stopsOnlyWith (name : String) :
    (defineExpression name).StopsOnlyWith (Blames event) :=
  fun before => unlessThen_stopsOnlyWith (by nofun) before

theorem rangeViolation?_ne {first last : String} (kind : Kind) (text : String) :
    rangeViolation? first last ≠ some (.misspelled kind text) := by
  rw [rangeViolation?]
  split
  · split <;> simp
  · simp

theorem countViolation?_ne {minimum maximum : String} (kind : Kind) (text : String) :
    countViolation? minimum maximum ≠ some (.misspelled kind text) := by
  rw [countViolation?]
  split
  · split <;> simp
  · simp

theorem opening_stopsOnlyWith (node : Node) : (opening node).StopsOnlyWith (Blames event) := by
  cases node
  case rule rule => exact defineRule_stopsOnlyWith rule.name
  case expression expression => exact defineExpression_stopsOnlyWith expression.name
  case bounded range =>
    refine stopWith_stopsOnlyWith fun kind text same => ?_
    rcases Option.bind_eq_some_iff.mp same with ⟨last, _, found⟩
    exact rangeViolation?_ne kind text found
  case constrained counts =>
    refine stopWith_stopsOnlyWith fun kind text same => ?_
    rcases Option.bind_eq_some_iff.mp same with ⟨maximum, _, found⟩
    exact countViolation?_ne kind text found
  case identifier identifier => cases identifier <;> exact modify_stopsOnlyWith _
  case text atom => cases atom <;> exact modify_stopsOnlyWith _
  all_goals exact modify_stopsOnlyWith _

theorem closing_stopsOnlyWith (node : Node) : (closing node).StopsOnlyWith (Blames event) := by
  cases node
  case document document =>
    intro before fault after failed
    rw [closing, checkReferences, Follow.runOn_get_bind] at failed
    refine Follow.StopsOnlyWith.bind ?_ (fun _ => ?_) before fault after failed
    · exact stopWith_stopsOnlyWith fun kind text same => by simp at same
    · exact stopWith_stopsOnlyWith fun kind text same => by simp at same
  all_goals exact modify_stopsOnlyWith _

theorem visit_stopsOnlyWith (event : Event) : (visit event).StopsOnlyWith (Blames event) := by
  cases event with
  | leaf kind text => exact checkLeaf_stopsOnlyWith kind text
  | enter node rank => exact opening_stopsOnlyWith node
  | leave node rank => exact closing_stopsOnlyWith node

/-- A validator names a leaf as misspelled only if the document has it and it is none of its kind. -/
theorem misspelled_leaf {validator : Validator} {document : Document} {kind : Kind} {text : String}
    (failed : (validator.validate document).1 = .error (.semantic (.misspelled kind text))) :
    .leaf kind text ∈ document.events ∧ kind.accepts text = false := by
  rw [validate_eq, Document.walk_eq] at failed
  rcases follow_stopsOnlyWith visit_stopsOnlyWith document.events _ _ _ (Prod.ext failed rfl) with
    ⟨event, member, blamed⟩
  rcases blamed kind text rfl with ⟨rfl, refused⟩
  exact ⟨member, refused⟩

end Validator

/-! ## Leaves of parsed documents -/

/-- A token of a source is matched as a whole by its kind, and is no intrinsic if it is the name of a
rule. -/
theorem Token.accepted_of_mem_scan {source : String} {token : Token} (member : token ∈ scan source)
    (notEof : token.kind ≠ .eof) (notError : token.kind ≠ .error) :
    token.kind.accepts token.text = true ∧
      (token.kind = .uppercase → token.text ∉ intrinsicNames) := by
  rcases (cover_scan source).isSpelled_of_mem member notEof notError with ⟨accepted, noIntrinsic⟩
  exact ⟨accepted, fun isName => mt Kind.mem_intrinsicTexts_iff.mpr (noIntrinsic isName)⟩

/-- A walk through a document shows the leaves among its parts and marks that are well spelled. -/
theorem accepts_of_leaf_mem {document : Document} (spelled : Spelled document.parts)
    {kind : Kind} {text : String} (member : .leaf kind text ∈ document.events) :
    kind.accepts text = true := by
  rcases shows_document document with ⟨events, walk, shows⟩
  have inside : .leaf kind text ∈ events := by
    rw [walk, List.mem_append, List.mem_singleton] at member
    exact member.resolve_right nofun
  by_cases isMark : kind = .delimiter
  · subst isMark
    exact shows.marks text inside
  · have part := (leaf_mem_iff isMark).mp inside
    rw [shows.shown] at part
    exact (spelled kind text part).1

/-- Every token of a source is matched as a whole by its kind, apart from the end and what is no token;
and no name of a rule among them is that of an intrinsic. All leaves that a walk through a parsed
document shows are matched in the same way, and so no validator finds one of them misspelled. -/
theorem scanned_is_accepted :
    (∀ (source : String) (token : Token), token ∈ Token.scan source → token.kind ≠ .eof →
      token.kind ≠ .error → token.kind.accepts token.text = true ∧
        (token.kind = .uppercase → token.text ∉ intrinsicNames)) ∧
    ∀ (parser : Parser) (source : String) (document : Document),
      parser.parse source = .ok document →
        Recorder.transcript document none = (.ok (), document.events) ∧
        (∀ kind text, .leaf kind text ∈ document.events → kind.accepts text = true) ∧
        ∀ (validator : Validator) (kind : Kind) (text : String),
          (validator.validate document).1 ≠ .error (.semantic (.misspelled kind text)) := by
  refine ⟨fun _ _ => Token.accepted_of_mem_scan, fun parser source document read => ?_⟩
  have spelled := ((hasSource_iff document).mp (parser.hasSource_of_parse read)).2.2.1
  refine ⟨transcript_whole document, fun _ _ => accepts_of_leaf_mem spelled, ?_⟩
  intro validator kind text failed
  rcases Validator.misspelled_leaf failed with ⟨member, refused⟩
  rw [accepts_of_leaf_mem spelled member] at refused
  cases refused

/-- A source that uses a name which it does not define. -/
def undefinedSource : String := "!>\nn\n<!\n!>\nl\n<!\nR:\n- a\n!>\n<!\nb: a\n"

def undefinedDocument : Document :=
  { Reading.smallDocument with expressions := [Reading.atomExpression "b" (.lowercase "a")] }

theorem parse_undefinedSource : ({} : Parser).parse undefinedSource = .ok undefinedDocument := by
  have scanned : Token.scan undefinedSource = Reading.smallDerivation.tokens.take 12 ++
      [⟨.lowercase, "b", ⟨11, 1⟩⟩, ⟨.delimiter, ":", ⟨11, 2⟩⟩, ⟨.lowercase, "a", ⟨11, 4⟩⟩,
        ⟨.newline, "\n", ⟨11, 5⟩⟩, ⟨.eof, "", ⟨12, 1⟩⟩] := by
    decide +kernel
  have ascending : Reading.IsAscending undefinedDocument.expressions := List.pairwise_singleton _ _
  exact Parser.parse_of_read {} ⟨[], []⟩ scanned ascending rfl

/-- The source is refused for the name and not for how one is spelled. -/
theorem undefinedDocument_refused :
    (⟨.uppercase, "R", ⟨7, 1⟩⟩ ∈ Token.scan undefinedSource ∧ Kind.uppercase.accepts "R" = true ∧
      "R" ∉ intrinsicNames) ∧
    ({} : Parser).parse undefinedSource = .ok undefinedDocument ∧
      (.leaf .comment undefinedDocument.notice ∈ undefinedDocument.events ∧
        Kind.comment.accepts undefinedDocument.notice = true) ∧
      (({} : Validator).validate undefinedDocument).1 =
        .error (.semantic (.expressionUndefined "a")) ∧
      ∀ kind text, (({} : Validator).validate undefinedDocument).1 ≠
        .error (.semantic (.misspelled kind text)) := by
  have member : ⟨.uppercase, "R", ⟨7, 1⟩⟩ ∈ Token.scan undefinedSource := by decide +kernel
  rcases scanned_is_accepted.1 undefinedSource _ member (by decide) (by decide) with
    ⟨accepted, noIntrinsic⟩
  have notice : .leaf .comment undefinedDocument.notice ∈ undefinedDocument.events :=
    List.mem_cons_of_mem _ (List.mem_cons_of_mem _ List.mem_cons_self)
  rcases scanned_is_accepted.2 {} undefinedSource undefinedDocument parse_undefinedSource with
    ⟨_, leaves, neverMisspelled⟩
  exact ⟨⟨member, accepted, noIntrinsic rfl⟩, parse_undefinedSource, ⟨notice, leaves _ _ notice⟩,
    rfl, neverMisspelled {}⟩

end GrammarBook
