import GrammarBook.Proofs.Analysis.Step
import GrammarBook.Proofs.Layout.Writing
import GrammarBook.Proofs.Walk.Following

namespace GrammarBook

open Walk

/-!
# Tools without memory

A validator, a formatter and an analyzer are used for one document after another, and a walk that was
stopped leaves them in the midst of it: in a filter, under brackets, with half an expression written.
A tool keeps its options through all this and starts every document from them alone. So what it has
been used for before makes no difference.
-/

namespace Walk

variable {σ τ α β : Type} {part : σ → τ}

/-- Work that leaves a part of the state as it was, whether it ends well or with a fault. -/
def Follow.Keeps (part : σ → τ) (work : Follow σ α) : Prop :=
  ∀ state, part (work.runOn state).2 = part state

theorem Follow.Keeps.bind {first : Follow σ α} {next : α → Follow σ β} (kept : first.Keeps part)
    (others : ∀ value, (next value).Keeps part) : (first >>= next).Keeps part := by
  intro state
  rcases Follow.runOn_bind_cases first next state with
    ⟨value, middle, ran, whole⟩ | ⟨fault, after, ran, whole⟩
  · rw [whole, others value middle, ← kept state, ran]
  · rw [whole, ← kept state, ran]

theorem keeps_follow {visit : Event → Follow σ Unit} (one : ∀ event, (visit event).Keeps part)
    (events : List Event) : (follow visit events).Keeps part := by
  induction events with
  | nil => exact fun _ => rfl
  | cons event events ih => exact (one event).bind fun _ => ih

/-- A walk keeps what every event keeps, however far it goes. -/
theorem keeps_walk {visit : Event → Follow σ Unit} (one : ∀ event, (visit event).Keeps part)
    (document : Document) : (document.walk visit).Keeps part := by
  rw [Document.walk_eq]
  exact keeps_follow one document.events

end Walk

/-! ## Tools and what they are used for -/

/-- A tool that follows walks. Its options are chosen when it is made. A call keeps them, with an
answer or with a fault, and depends on nothing else of the state it finds. -/
structure Tool (σ Options Answer : Type) where
  fresh : Options → σ
  options : σ → Options
  visit : Event → Follow σ Unit
  call : Document → Follow σ Answer
  options_fresh : ∀ chosen, options (fresh chosen) = chosen
  visit_keeps : ∀ event, (visit event).Keeps options
  call_keeps : ∀ document, (call document).Keeps options
  call_afresh : ∀ document state,
    (call document).runOn state = (call document).runOn (fresh (options state))

namespace Tool

/-- What a tool may have been used for: a whole document, or a single event of any walk. -/
inductive Task where
  | whole (document : Document)
  | single (event : Event)

variable {σ Options Answer : Type} (tool : Tool σ Options Answer)

/-- The state that a task leaves, be it completed or stopped. -/
def after (state : σ) : Task → σ
  | .whole document => ((tool.call document).runOn state).2
  | .single event => ((tool.visit event).runOn state).2

/-- The state of a tool with the chosen options after a history of tasks. -/
def afterAll (chosen : Options) (history : List Task) : σ :=
  history.foldl tool.after (tool.fresh chosen)

theorem options_after (state : σ) (task : Task) :
    tool.options (tool.after state task) = tool.options state := by
  cases task with
  | whole document => exact tool.call_keeps document state
  | single event => exact tool.visit_keeps event state

theorem options_foldl_after (history : List Task) (state : σ) :
    tool.options (history.foldl tool.after state) = tool.options state := by
  induction history generalizing state with
  | nil => rfl
  | cons task history ih => exact (ih (tool.after state task)).trans (tool.options_after state task)

/-- A used tool does what a fresh one does, and is left as a fresh one is. -/
theorem call_afterAll (chosen : Options) (history : List Task) (document : Document) :
    (tool.call document).runOn (tool.afterAll chosen history) =
      (tool.call document).runOn (tool.fresh chosen) := by
  rw [tool.call_afresh, afterAll, options_foldl_after, tool.options_fresh]

end Tool

/-! ## The three tools -/

/-- A validator has no options. -/
def Validator.tool : Tool Validator Unit Unit where
  fresh _ := {}
  options _ := ()
  visit := visit
  call := validating
  options_fresh _ := rfl
  visit_keeps _ _ := rfl
  call_keeps _ _ := rfl
  call_afresh _ _ := rfl

namespace Formatter

theorem opened_indentSize (formatter : Formatter) (node : Node) (rank : Option Rank) :
    (formatter.opened node rank).indentSize = formatter.indentSize := by
  cases node
  case pattern =>
    rw [opened]
    split <;> rfl
  all_goals rfl

theorem closed_indentSize (formatter : Formatter) (node : Node) (rank : Option Rank) :
    (formatter.closed node rank).indentSize = formatter.indentSize := by
  cases node
  case expression =>
    rw [closed]
    split <;> rfl
  all_goals rfl

theorem visit_keeps_indentSize (event : Event) : (visit event).Keeps Formatter.indentSize := by
  intro formatter
  rw [visit_runOn]
  cases event with
  | leaf kind text => rfl
  | enter node rank => exact formatter.opened_indentSize node rank
  | leave node rank => exact formatter.closed_indentSize node rank

/-- A formatter is made with the size of an indentation. -/
def tool : Tool Formatter Nat String where
  fresh indentSize := { indentSize }
  options := Formatter.indentSize
  visit := visit
  call := formatting
  options_fresh _ := rfl
  visit_keeps := visit_keeps_indentSize
  call_keeps document :=
    have cleared : (modify Formatter.cleared : Follow Formatter Unit).Keeps Formatter.indentSize :=
      fun _ => rfl
    cleared.bind fun _ => (keeps_walk visit_keeps_indentSize document).bind fun _ _ => rfl
  call_afresh _ _ := rfl

end Formatter

namespace Analyzer

theorem visit_keeps_delimiterName (event : Event) :
    (visit event).Keeps Analyzer.delimiterName := by
  intro analyzer
  rw [visit_runOn]
  cases analyzer.findings.violation? event with
  | none => rfl
  | some violation => rfl

theorem analyzing_keeps_delimiterName (document : Document) :
    (analyzing document).Keeps Analyzer.delimiterName := by
  have cleared : (modify (fun analyzer => { analyzer with findings := {} }) :
      Follow Analyzer Unit).Keeps Analyzer.delimiterName := fun _ => rfl
  refine cleared.bind fun _ =>
    (keeps_walk visit_keeps_delimiterName document).bind fun _ analyzer => ?_
  rw [Follow.runOn_get_bind, Follow.runOn_set_bind]
  cases conclude analyzer.delimiterName analyzer.findings with
  | ok analysis => rfl
  | error fault => rfl

/-- An analyzer is made with the name for the synthesized expression. -/
def tool : Tool Analyzer String Analysis where
  fresh delimiterName := { delimiterName }
  options := Analyzer.delimiterName
  visit := visit
  call := analyzing
  options_fresh _ := rfl
  visit_keeps := visit_keeps_delimiterName
  call_keeps := analyzing_keeps_delimiterName
  call_afresh _ _ := rfl

end Analyzer

/-- Whatever a validator, a formatter or an analyzer has been used for, with whatever result, and
wherever a walk has left it: it answers for the next document as one that was just made with the same
options, and is left in the same state. -/
theorem tools_have_no_memory :
    (∀ (history : List Tool.Task) (document : Document),
      (Validator.tool.afterAll () history).validate document = ({} : Validator).validate document) ∧
    (∀ (indentSize : Nat) (history : List Tool.Task) (document : Document),
      (Formatter.tool.afterAll indentSize history).format document =
        ({ indentSize } : Formatter).format document) ∧
    ∀ (delimiterName : String) (history : List Tool.Task) (document : Document),
      (Analyzer.tool.afterAll delimiterName history).analyze document =
        ({ delimiterName } : Analyzer).analyze document :=
  ⟨Validator.tool.call_afterAll (), Formatter.tool.call_afterAll, Analyzer.tool.call_afterAll⟩

/-- A document with a decreasing range in an excluded filter. -/
def stoppedInFilter : Document where
  notice := "!>\n<!"
  leading := "!>\n<!"
  rules := [⟨"A", .multiline [⟨.lower "a", none⟩]⟩]
  trailing := "!>\n<!"
  expressions :=
    [⟨"a", .mk (.mk [.mk (.filter ⟨some "~", [.bounded ⟨"'z'", some "'a'"⟩]⟩) none]) [], none⟩]

/-- There is something to forget: a validator is left in the filter in which it stops. -/
example : (({} : Validator).validate stoppedInFilter).2.excluding = true := rfl

end GrammarBook
