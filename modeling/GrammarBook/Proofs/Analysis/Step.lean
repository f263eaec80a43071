import GrammarBook.Analysis.Analyzer
import GrammarBook.Proofs.Walk.Following

namespace GrammarBook

open Walk

/-!
# What an analyzer finds at an event

An analyzer stops a walk only at a glyph or an intrinsic that is none. Wherever it goes on, its
findings are those before, changed by a function of the event. So the findings at the end of a walk
are a fold of that function over the events, and a walk without a violation comes to its end.
-/

/-- The fragments of a glyph: the character it quotes, if it quotes one. -/
def glyphFragments (glyph : String) : List Fragment :=
  (Token.glyphCharacter? glyph).toList.map fun c => .text (Regex.escape (String.singleton c))

/-- The fragments of an intrinsic, in a filter or on its own. -/
def intrinsicFragments (name : String) (inFilter : Bool) : List Fragment :=
  (Regex.intrinsic? name inFilter).toList.map .text

namespace Findings

/-- The findings with more fragments of the current expression. -/
def write (findings : Findings) (fragments : List Fragment) : Findings :=
  { findings with fragments := findings.fragments ++ fragments }

/-- The marks of repetitions, the innermost one set if there is a wildcard. -/
def markInnermost (isWild : Bool) : List Bool → List Bool
  | [] => []
  | innermost :: outer => (innermost || isWild) :: outer

/-- The findings with the innermost repetition marked if there is a wildcard. -/
def mark (findings : Findings) (isWild : Bool) : Findings :=
  { findings with wildcards := markInnermost isWild findings.wildcards }

@[simp] theorem mark_false (findings : Findings) : findings.mark false = findings := by
  rcases findings with ⟨_, _, _, _, _, _, _, _, _, _, _, _, _, _, _ | ⟨innermost, outer⟩⟩
  · rfl
  · simp [mark, markInnermost]

theorem mark_true (findings : Findings) : findings.mark true = Analyzer.markWildcard findings := by
  rcases findings with ⟨_, _, _, _, _, _, _, _, _, _, _, _, _, _, _ | ⟨innermost, outer⟩⟩
  · rfl
  · simp [mark, markInnermost, Analyzer.markWildcard]

def leaf (findings : Findings) (kind : Kind) (text : String) : Findings :=
  match kind with
  | .glyph => if findings.inExpression then findings.write (glyphFragments text) else findings
  | .intrinsic => (findings.mark (text == "ANY")).write (intrinsicFragments text findings.inFilter)
  | .literal =>
    if findings.inExpression then findings.write [.text (Regex.escape (Token.literalText text))]
    else { findings with literals := findings.literals.insert (Token.literalText text) }
  | .quantified => if findings.inExpression then findings.write [.text text] else findings
  | _ => findings

/-- The findings before the parts of a node. -/
def opened (findings : Findings) : Node → Findings
  | .document document =>
    { findings with notice := document.notice, comment := document.leading }
  | .rule rule => Analyzer.startRule rule.name findings
  | .line line => Analyzer.addOccurrence ⟨line.identifier, false⟩ findings
  | .reference reference =>
    Analyzer.addOccurrence
      ⟨reference.identifier, Analyzer.pluralityOf findings.brackets reference⟩ findings
  | .bracket _ cardinality =>
    { findings with brackets := cardinality.map Cardinality.isPlural :: findings.brackets }
  | .expression expression => Analyzer.startExpression expression.name findings
  | .alternative _ => findings.write [.text "|"]
  | .repetition _ => { findings with wildcards := false :: findings.wildcards }
  | .group _ => findings.write [.text Regex.groupStart]
  | .filter filter =>
    { findings with inFilter := true }.write [.text (if filter.isExcluded then "[^" else "[")]
  | .bounded bounded =>
    if Analyzer.needsClass bounded findings then findings.write [.text "["] else findings
  | .extent _ => findings.write [.text "-"]
  | .text (.lowercase name) => findings.write [.reference name]
  | _ => findings

/-- The findings after the parts of a node. -/
def closed (findings : Findings) : Node → Findings
  | .rule rule => Analyzer.endRule rule findings
  | .bracket .. => { findings with brackets := findings.brackets.drop 1 }
  | .expression expression => Analyzer.endExpression expression.name findings
  | .repetition repetition => Analyzer.endRepetition repetition findings
  | .group _ => findings.write [.text ")"]
  | .filter _ => { findings.write [.text "]"] with inFilter := false }
  | .bounded bounded =>
    if Analyzer.needsClass bounded findings then findings.write [.text "]"] else findings
  | .constrained constraint =>
    if findings.inExpression then findings.write [.text (Analyzer.quantifier constraint)]
    else findings
  | _ => findings

def step (findings : Findings) : Event → Findings
  | .leaf kind text => findings.leaf kind text
  | .enter node _ => findings.opened node
  | .leave node _ => findings.closed node

section

variable (findings : Findings) (rank : Option Rank)

theorem step_enter_bounded (bounded : Bounded) :
    findings.step (.enter (.bounded bounded) rank) =
      if Analyzer.needsClass bounded findings then findings.write [.text "["] else findings := rfl

theorem step_leave_bounded (bounded : Bounded) :
    findings.step (.leave (.bounded bounded) rank) =
      if Analyzer.needsClass bounded findings then findings.write [.text "]"] else findings := rfl

theorem step_enter_filter (filter : Filter) :
    findings.step (.enter (.filter filter) rank) =
      { findings with inFilter := true }.write
        [.text (if filter.isExcluded then "[^" else "[")] := rfl

theorem step_leave_filter (filter : Filter) :
    findings.step (.leave (.filter filter) rank) =
      { findings.write [.text "]"] with inFilter := false } := rfl

theorem step_enter_repetition (repetition : Repetition) :
    findings.step (.enter (.repetition repetition) rank) =
      { findings with wildcards := false :: findings.wildcards } := rfl

theorem step_literal (literal : String) :
    findings.step (.leaf .literal literal) =
      if findings.inExpression then
        findings.write [.text (Regex.escape (Token.literalText literal))]
      else { findings with literals := findings.literals.insert (Token.literalText literal) } := rfl

end

/-- What an analyzer objects to at an event. -/
def violation? (findings : Findings) : Event → Option Violation
  | .leaf .glyph text =>
    if findings.inExpression ∧ Token.glyphCharacter? text = none then some (.glyphMalformed text)
    else none
  | .leaf .intrinsic text =>
    if Regex.intrinsic? text findings.inFilter = none then some (.intrinsicUnknown text) else none
  | _ => none

end Findings

namespace Analyzer

def withFindings (analyzer : Analyzer) (findings : Findings) : Analyzer :=
  { analyzer with findings := findings }

@[simp] theorem withFindings_findings (analyzer : Analyzer) (findings : Findings) :
    (analyzer.withFindings findings).findings = findings := rfl

@[simp] theorem withFindings_delimiterName (analyzer : Analyzer) (findings : Findings) :
    (analyzer.withFindings findings).delimiterName = analyzer.delimiterName := rfl

variable {analyzer after : Analyzer}

/-- The outcome of an event: the next findings, or the fault where there is a violation. -/
def outcome (analyzer : Analyzer) (findings : Findings) :
    Option Violation → Except Fault Unit × Analyzer
  | none => (.ok (), analyzer.withFindings findings)
  | some violation => (.error (.semantic violation), analyzer)

/-- What is noted on a condition is found on that condition. -/
theorem noteIf_runOn (condition : Bool) (change : Findings → Findings) (analyzer : Analyzer) :
    Follow.runOn (if condition then note change else pure ()) analyzer =
      (.ok (), analyzer.withFindings
        (if condition then change analyzer.findings else analyzer.findings)) := by
  cases condition with
  | true => rfl
  | false => rfl

theorem writeGlyph_runOn (glyph : String) (analyzer : Analyzer) :
    (writeGlyph glyph).runOn analyzer = analyzer.outcome (analyzer.findings.leaf .glyph glyph)
      (analyzer.findings.violation? (.leaf .glyph glyph)) := by
  rw [writeGlyph, Follow.runOn_get_bind, Findings.violation?, Findings.leaf, glyphFragments]
  cases analyzer.findings.inExpression with
  | false => rfl
  | true =>
      cases Token.glyphCharacter? glyph with
      | none => rfl
      | some c => rfl

theorem writeIntrinsic_runOn (name : String) (analyzer : Analyzer) :
    (writeIntrinsic name).runOn analyzer =
      analyzer.outcome (analyzer.findings.leaf .intrinsic name)
        (analyzer.findings.violation? (.leaf .intrinsic name)) := by
  rw [writeIntrinsic, Follow.runOn_get_bind, Findings.violation?, Findings.leaf, intrinsicFragments]
  cases Regex.intrinsic? name analyzer.findings.inFilter with
  | none => rfl
  | some regex =>
      by_cases isAny : name = "ANY"
      · subst isAny
        rw [beq_self_eq_true, Findings.mark_true]
        rfl
      · rw [beq_false_of_ne isAny, Findings.mark_false]
        simp only [if_neg isAny]
        rfl

theorem writeLiteral_runOn (literal : String) (analyzer : Analyzer) :
    (writeLiteral literal).runOn analyzer =
      (.ok (), analyzer.withFindings (analyzer.findings.leaf .literal literal)) := by
  change Follow.runOn (if analyzer.findings.inExpression then _ else _) analyzer = _
  rw [Findings.leaf]
  by_cases inside : analyzer.findings.inExpression = true
  · rw [if_pos inside, if_pos inside]
    rfl
  · rw [if_neg inside, if_neg inside]
    rfl

theorem visitLeaf_runOn (kind : Kind) (text : String) (analyzer : Analyzer) :
    (visitLeaf kind text).runOn analyzer = analyzer.outcome (analyzer.findings.leaf kind text)
      (analyzer.findings.violation? (.leaf kind text)) := by
  cases kind
  case glyph => exact writeGlyph_runOn text analyzer
  case intrinsic => exact writeIntrinsic_runOn text analyzer
  case literal => exact writeLiteral_runOn text analyzer
  case quantified => exact noteIf_runOn ..
  all_goals rfl

theorem opening_runOn (node : Node) (analyzer : Analyzer) :
    (opening node).runOn analyzer =
      (.ok (), analyzer.withFindings (analyzer.findings.opened node)) := by
  cases node
  case bounded bounded => exact noteIf_runOn ..
  case text atom => cases atom <;> rfl
  all_goals rfl

theorem closing_runOn (node : Node) (analyzer : Analyzer) :
    (closing node).runOn analyzer =
      (.ok (), analyzer.withFindings (analyzer.findings.closed node)) := by
  cases node
  case bounded bounded => exact noteIf_runOn ..
  case constrained constraint => exact noteIf_runOn ..
  all_goals rfl

/-- An analyzer makes a step, or stops with its violation and keeps its findings. -/
theorem visit_runOn (event : Event) (analyzer : Analyzer) :
    (visit event).runOn analyzer =
      analyzer.outcome (analyzer.findings.step event) (analyzer.findings.violation? event) := by
  cases event with
  | leaf kind text => exact visitLeaf_runOn kind text analyzer
  | enter node rank => exact opening_runOn node analyzer
  | leave node rank => exact closing_runOn node analyzer

theorem visit_runOn_iff (event : Event) (before after : Analyzer) :
    (visit event).runOn before = (.ok (), after) ↔
      before.findings.violation? event = none ∧
        after = before.withFindings (before.findings.step event) := by
  rw [visit_runOn]
  cases before.findings.violation? event with
  | none => exact ⟨fun ran => ⟨rfl, (Prod.mk.inj ran).2.symm⟩, fun ⟨_, same⟩ => same ▸ rfl⟩
  | some violation => exact ⟨fun ran => (by cases ran), fun ⟨absent, _⟩ => (by cases absent)⟩

theorem foldl_withFindings (events : List Event) (analyzer : Analyzer) :
    events.foldl (fun analyzer event => analyzer.withFindings (analyzer.findings.step event))
      analyzer = analyzer.withFindings (events.foldl Findings.step analyzer.findings) := by
  induction events generalizing analyzer with
  | nil => rfl
  | cons event events ih => exact ih _

/-- The findings at the end of a walk. -/
theorem follow_runOn {events : List Event}
    (followed : (follow visit events).runOn analyzer = (.ok (), after)) :
    after = analyzer.withFindings (events.foldl Findings.step analyzer.findings) := by
  rw [← foldl_withFindings]
  exact ((follow_runOn_iff visit_runOn_iff).mp followed).2

/-- A walk in which there is never a violation is followed to its end. -/
theorem follow_completes {events : List Event}
    (sound : ∀ event ∈ events, ∀ findings : Findings, findings.violation? event = none)
    (analyzer : Analyzer) : ∃ after, (follow visit events).runOn analyzer = (.ok (), after) := by
  have passes := passesAll_of_forall (fun event member (analyzer : Analyzer) =>
    sound event member analyzer.findings)
    (fun analyzer event => analyzer.withFindings (analyzer.findings.step event)) analyzer
  exact ⟨_, (follow_runOn_iff visit_runOn_iff).mpr ⟨passes, rfl⟩⟩

end Analyzer
end GrammarBook
