import GrammarBook.Command.Run
import GrammarBook.Proofs.Command.Question
import GrammarBook.Proofs.Layout.RoundTrip

namespace GrammarBook
namespace Command

/-!
# Runs that format documents

Each document of a run is read, judged and laid out on its own; the formatter that they share starts
every one of them afresh. What one step may come to is said once, and a run is a row of steps, up to
the first that ends the run early.
-/

/-! ## Layouts of sources -/

/-- The text is the layout of the document in the source, which can be read and is valid. -/
def IsLayoutOf (settings : Settings) (source text : String) : Prop :=
  ∃ document, readValid settings source = .ok document ∧
    (settings.freshFormatter.format document).1 = .ok text

section Layouts

variable {settings : Settings} {source text other : String} {document : Document}

theorem readValid_eq_ok_iff : readValid settings source = .ok document ↔
    settings.parser.parse source = .ok document ∧ document.validate = .ok () := by
  rw [readValid]
  cases read : settings.parser.parse source with
  | error fault => simp [bind, Except.bind]
  | ok found =>
      cases valid : found.validate with
      | error fault =>
          simp only [bind, Except.bind, valid, reduceCtorEq, false_iff, not_and]
          rintro ⟨⟩
          simp [valid]
      | ok done =>
          simp only [bind, Except.bind, valid, pure, Except.pure]
          constructor
          · rintro ⟨⟩
            exact ⟨rfl, valid⟩
          · exact fun found => found.1

theorem IsLayoutOf.unique (first : IsLayoutOf settings source text)
    (second : IsLayoutOf settings source other) : other = text := by
  rcases first with ⟨document, read, written⟩
  rcases second with ⟨found, readAgain, writtenAgain⟩
  rw [read] at readAgain
  cases readAgain
  rw [written] at writtenAgain
  exact (Except.ok.inj writtenAgain).symm

/-- A formatter that writes as the settings ask, once it starts afresh. -/
def IsReady (settings : Settings) (formatter : Formatter) : Prop :=
  formatter.cleared = settings.freshFormatter

/-- What can be read and is valid is laid out, and the layout is its own layout. -/
theorem exists_layout (read : readValid settings source = .ok document) {formatter : Formatter}
    (ready : IsReady settings formatter) :
    ∃ text, formatter.format document = (.ok text, formatter.cleared) ∧
      IsLayoutOf settings source text ∧ IsLayoutOf settings text text := by
  rcases readValid_eq_ok_iff.mp read with ⟨parsed, valid⟩
  rcases Parser.exists_format _ settings.parser parsed formatter with ⟨text, written, reread⟩
  have fresh : (settings.freshFormatter.format document).1 = .ok text := by
    rw [← ready, Formatter.format_cleared, written]
  exact ⟨text, written, ⟨document, read, fresh⟩,
    ⟨document, readValid_eq_ok_iff.mpr ⟨reread, valid⟩, fresh⟩⟩

theorem IsLayoutOf.self (isLayout : IsLayoutOf settings source text) :
    IsLayoutOf settings text text := by
  rcases isLayout with ⟨document, read, written⟩
  have ready : IsReady settings settings.freshFormatter := rfl
  rcases exists_layout read ready with ⟨other, _, first, second⟩
  rw [← first.unique ⟨document, read, written⟩] at second
  exact second

end Layouts

/-! ## One document -/

/-- What formatting the document at a path may come to, with the world that it leaves. -/
inductive Step (settings : Settings) (destination : Destination) (path : String) (world : World) :
    Except Trouble Verdict → World → Prop
  | unreadable {problem : FileProblem} (unread : world.readText path = .error problem) :
      Step settings destination path world (.error (.unreadable path problem)) world
  | unprocessable {source : String} {fault : Fault} (read : world.readText path = .ok source)
      (rejected : readValid settings source = .error fault) (fatal : fault.isRecoverable = false) :
      Step settings destination path world (.error (.unprocessable path fault)) world
  | faulty {source : String} {fault : Fault} {after : World}
      (read : world.readText path = .ok source)
      (rejected : readValid settings source = .error fault) (minor : fault.isRecoverable = true)
      (kept : after.silent = world.silent) :
      Step settings destination path world (.ok .faulty) after
  | canonical {source : String} {after : World} (read : world.readText path = .ok source)
      (isLayout : IsLayoutOf settings source source) (kept : after.silent = world.silent) :
      Step settings destination path world (.ok .fine) after
  | printed {source text : String} {after : World} (prints : destination = .output)
      (read : world.readText path = .ok source) (isLayout : IsLayoutOf settings source text)
      (kept : after.silent = world.silent) :
      Step settings destination path world (.ok .fine) after
  | differs {source text : String} {after : World} (compares : destination = .nowhere)
      (read : world.readText path = .ok source) (isLayout : IsLayoutOf settings source text)
      (other : text ≠ source) (kept : after.silent = world.silent) :
      Step settings destination path world (.ok .differs) after
  | unwritable {source text : String} {problem : FileProblem} (writes : destination = .file)
      (read : world.readText path = .ok source) (isLayout : IsLayoutOf settings source text)
      (other : text ≠ source) (unwritten : world.writeText path text = .error problem) :
      Step settings destination path world (.error (.unwritable path problem)) world
  | written {source text : String} {middle after : World} (writes : destination = .file)
      (read : world.readText path = .ok source) (isLayout : IsLayoutOf settings source text)
      (other : text ≠ source) (written : world.writeText path text = .ok middle)
      (kept : after.silent = middle.silent) :
      Step settings destination path world (.ok .fine) after

section Running

variable {α β : Type} {settings : Settings} {destination : Destination} {isPlain : Bool}
  {path source : String} {world after : World} {formatter left : Formatter}

def runWith (work : FormatWork (StateM World) α) (formatter : Formatter) (world : World) :
    Except Trouble (α × Formatter) × World :=
  runIn (work.run formatter).run world

section Bind

variable {first : FormatWork (StateM World) α} {next : α → FormatWork (StateM World) β}

theorem runWith_bind {value : α}
    (ran : runWith first formatter world = (.ok (value, left), after)) :
    runWith (first >>= next) formatter world = runWith (next value) left after := by
  rw [runWith] at ran
  rw [runWith, StateT.run_bind, runIn_workBind, ran]
  rfl

theorem runWith_bind_error {trouble : Trouble}
    (ran : runWith first formatter world = (.error trouble, after)) :
    runWith (first >>= next) formatter world = (.error trouble, after) := by
  rw [runWith] at ran
  rw [runWith, StateT.run_bind, runIn_workBind, ran]

end Bind

theorem runWith_lift (work : Work (StateM World) α) :
    runWith (liftM work : FormatWork (StateM World) α) formatter world =
      ((runIn work.run world).1.map (·, formatter), (runIn work.run world).2) := by
  change runIn (work >>= fun value => pure (value, formatter)).run world = _
  rw [runIn_workBind]
  rcases runIn work.run world with ⟨_ | _, _⟩ <;> rfl

theorem runWith_readDocument (path : String) (formatter : Formatter) (world : World) :
    runWith (liftM (readDocument path : Work (StateM World) String)) formatter world =
      (((world.readText path).mapError (Trouble.unreadable path)).map (·, formatter), world) := by
  rw [runWith_lift, readDocument, runIn_workBind, runIn_lift, runIn_readText]
  cases world.readText path <;> rfl

theorem runWith_judge (settings : Settings) (path source : String) (formatter : Formatter)
    (world : World) :
    runWith (liftM (judge settings path source : Work (StateM World) _)) formatter world =
      (((Fault.separate (readValid settings source)).mapError (Trouble.unprocessable path)).map
        (·, formatter), world) := by
  rw [runWith_lift, judge]
  cases Fault.separate (readValid settings source) <;> rfl

theorem runWith_layOut {document : Document} {text : String}
    (written : formatter.format document = (.ok text, left)) :
    runWith (layOut document) formatter world = (.ok (text, left), world) := by
  have starts : runWith (get : FormatWork (StateM World) Formatter) formatter world =
      (.ok (formatter, formatter), world) := rfl
  rw [layOut, runWith_bind starts, written]
  rfl

theorem runIn_writeText (path text : String) (world : World) :
    runIn (Host.writeText path text) world =
      match world.writeText path text with
      | .ok written => (.ok (), written)
      | .error problem => (.error problem, world) := by
  have gets : runIn (get : StateM World World) world = (world, world) := rfl
  change runIn (get >>= fun world => _) world = _
  rw [runIn_bind, gets]
  dsimp only
  cases world.writeText path text <;> rfl

/-- Another layout than the source goes where it belongs. -/
theorem exists_delivery {text : String} (read : world.readText path = .ok source)
    (isLayout : IsLayoutOf settings source text) (other : text ≠ source) :
    ∃ result after,
      runIn (deliver isPlain destination path text : Work (StateM World) Verdict).run world =
        (result, after) ∧
      Step settings destination path world result after := by
  cases destination with
  | output => exact ⟨_, _, rfl, .printed rfl read isLayout rfl⟩
  | nowhere => exact ⟨_, _, rfl, .differs rfl read isLayout other rfl⟩
  | file =>
      rw [deliver, runIn_workBind, runIn_lift, runIn_writeText]
      cases written : world.writeText path text with
      | error problem => exact ⟨_, _, rfl, .unwritable rfl read isLayout other written⟩
      | ok middle => exact ⟨_, _, rfl, .written rfl read isLayout other written rfl⟩

/-- A step of a run leaves a formatter that is ready for the next one. -/
theorem exists_step (isPlain : Bool) (ready : IsReady settings formatter) :
    ∃ result left after, IsReady settings left ∧
      runWith (formatDocument settings isPlain destination path) formatter world =
        (result.map (·, left), after) ∧
      Step settings destination path world result after := by
  rw [formatDocument]
  have reads := runWith_readDocument path formatter world
  cases read : world.readText path with
  | error problem =>
      rw [read] at reads
      exact ⟨_, formatter, world, ready, runWith_bind_error reads, .unreadable read⟩
  | ok source =>
      rw [read] at reads
      rw [runWith_bind reads]
      have judges := runWith_judge settings path source formatter world
      cases judged : readValid settings source with
      | error fault =>
          rw [judged, Fault.separate] at judges
          split at judges
          · rename_i minor
            rw [runWith_bind judges]
            exact ⟨.ok .faulty, formatter, _, ready, rfl, .faulty read judged minor rfl⟩
          · rename_i fatal
            exact ⟨_, formatter, world, ready, runWith_bind_error judges,
              .unprocessable read judged (Bool.not_eq_true _ ▸ fatal)⟩
      | ok document =>
          rw [judged] at judges
          rw [runWith_bind judges]
          rcases exists_layout judged ready with ⟨text, written, isLayout, _⟩
          dsimp only
          rw [runWith_bind (runWith_layOut written)]
          by_cases same : text = source
          · subst same
            rw [if_pos rfl]
            by_cases prints : destination = .output
            · rw [if_pos prints]
              exact ⟨.ok .fine, formatter.cleared, _, ready, rfl, .canonical read isLayout rfl⟩
            · rw [if_neg prints]
              exact ⟨.ok .fine, formatter.cleared, world, ready, rfl, .canonical read isLayout rfl⟩
          · rw [if_neg same]
            obtain ⟨result, after, ran, step⟩ := exists_delivery read isLayout same
            refine ⟨result, formatter.cleared, after, ready, ?_, step⟩
            rw [runWith_lift, ran]

end Running

/-! ## All documents -/

/-- What formatting documents one after another may come to, with the world that it leaves. -/
inductive Steps (settings : Settings) (destination : Destination) :
    List String → World → Except Trouble (List Verdict) → World → Prop
  | done {world : World} : Steps settings destination [] world (.ok []) world
  | stopped {path : String} {others : List String} {world after : World} {trouble : Trouble}
      (step : Step settings destination path world (.error trouble) after) :
      Steps settings destination (path :: others) world (.error trouble) after
  | next {path : String} {others : List String} {world middle after : World} {verdict : Verdict}
      {result : Except Trouble (List Verdict)}
      (step : Step settings destination path world (.ok verdict) middle)
      (steps : Steps settings destination others middle result after) :
      Steps settings destination (path :: others) world (result.map (verdict :: ·)) after

/-- Formatting documents is a row of steps. -/
theorem exists_steps {settings : Settings} (destination : Destination) (isPlain : Bool)
    (files : List String) (world : World) {formatter : Formatter}
    (ready : IsReady settings formatter) :
    ∃ result left after,
      runWith (files.mapM (formatDocument settings isPlain destination)) formatter world =
        (result.map (·, left), after) ∧
      Steps settings destination files world result after := by
  -- Any formatter that is ready will do, so that the one left by the first step does for the others.
  induction files generalizing world formatter with
  | nil => exact ⟨.ok [], formatter, world, rfl, .done⟩
  | cons path others ih =>
      rw [List.mapM_cons]
      rcases exists_step isPlain ready with ⟨result, left, middle, readyAgain, ran, step⟩
      cases result with
      | error trouble => exact ⟨_, left, middle, runWith_bind_error ran, .stopped step⟩
      | ok verdict =>
          rw [runWith_bind ran]
          rcases ih middle readyAgain with ⟨results, last, after, ranOthers, steps⟩
          refine ⟨_, last, after, ?_, .next step steps⟩
          cases results with
          | error trouble => exact runWith_bind_error ranOthers
          | ok verdicts => exact runWith_bind ranOthers

/-! ## The whole command -/

/-- The documents and the settings that a command on paths works with. -/
structure WorksWith (chosen : Option String) (paths : List String) (indentSize : Option Nat)
    (world : World) (files : List String) (settings : Settings) : Prop where
  documents : ask (documents paths).run world = .ok files
  settings : ∃ found, ask (obtainSettings chosen paths).run world = .ok found ∧
    settings = indentSize.elim found found.withIndentSize

/-- The number that a run ends with. -/
def exitOf : Except Trouble (List Verdict) → Nat
  | .ok verdicts => if verdicts.all (· = .fine) then 0 else 1
  | .error _ => 1

/-- What a command that formats documents may come to. -/
inductive Formats (chosen : Option String) (paths : List String) (destination : Destination)
    (indentSize : Option Nat) (world : World) : Nat → World → Prop
  | unstarted {after : World}
      (nothing : ∀ files settings, ¬ WorksWith chosen paths indentSize world files settings)
      (kept : after.silent = world.silent) :
      Formats chosen paths destination indentSize world 1 after
  | started {files : List String} {settings : Settings} {middle after : World}
      {result : Except Trouble (List Verdict)}
      (works : WorksWith chosen paths indentSize world files settings)
      (steps : Steps settings destination files world result middle)
      (kept : after.silent = middle.silent) :
      Formats chosen paths destination indentSize world (exitOf result) after

section Whole

variable {chosen : Option String} {paths : List String} {destination : Destination}
  {indentSize : Option Nat} {world : World}

/-- Whatever else is printed, it comes to the same. -/
theorem Formats.printing {exit : Nat} {after later : World}
    (formats : Formats chosen paths destination indentSize world exit after)
    (printed : later.silent = after.silent) :
    Formats chosen paths destination indentSize world exit later := by
  cases formats with
  | unstarted nothing kept => exact .unstarted nothing (printed.trans kept)
  | started works steps kept => exact .started works steps (printed.trans kept)

theorem formats_formatPaths (isPlain : Bool) :
    ∃ result after, runIn (formatPaths chosen isPlain paths destination indentSize :
        Work (StateM World) Bool).run world = (result, after) ∧
      Formats chosen paths destination indentSize world
        (match result with | .ok isFine => if isFine then 0 else 1 | .error _ => 1) after := by
  rw [formatPaths, runIn_workBind, (isQuestion_documents paths).keeps]
  cases listed : ask (documents paths : Work (StateM World) _).run world with
  | error trouble =>
      refine ⟨_, _, rfl, .unstarted (fun files settings works => ?_) rfl⟩
      rw [works.documents] at listed
      cases listed
  | ok files =>
      dsimp only
      rw [runIn_workBind, keeps_obtainSettings]
      cases obtained : ask (obtainSettings chosen paths : Work (StateM World) _).run world with
      | error trouble =>
          refine ⟨_, _, rfl, .unstarted (fun files settings works => ?_) rfl⟩
          rcases works.settings with ⟨found, loaded, _⟩
          rw [loaded] at obtained
          cases obtained
      | ok found =>
          dsimp only
          have works : WorksWith chosen paths indentSize world files
              (indentSize.elim found found.withIndentSize) := ⟨listed, found, obtained, rfl⟩
          cases files with
          | nil => exact ⟨_, _, rfl, .started works .done rfl⟩
          | cons path others =>
              have ready : IsReady (indentSize.elim found found.withIndentSize)
                  (indentSize.elim found found.withIndentSize).freshFormatter := rfl
              rcases exists_steps destination isPlain (path :: others) world ready with
                ⟨result, left, middle, ran, steps⟩
              rw [runWith] at ran
              rw [if_neg (by simp), runIn_workBind, ran]
              cases result with
              | error trouble => exact ⟨_, _, rfl, .started works steps rfl⟩
              | ok verdicts =>
                  dsimp only [Except.map]
                  split
                  · exact ⟨_, _, rfl, .started works steps rfl⟩
                  · exact ⟨_, _, rfl, .started works steps rfl⟩

/-- A command line that asks for formatting does this and no more. -/
theorem formats_run {arguments : List String} {isPlain : Bool}
    (reads : Line.read arguments = .ok ⟨.format paths destination indentSize, chosen, isPlain⟩)
    (wantsPlain : Bool) (world : World) :
    Formats chosen paths destination indentSize world
      (runIn (run wantsPlain arguments) world).1 (runIn (run wantsPlain arguments) world).2 := by
  rcases formats_formatPaths (wantsPlain || isPlain) with ⟨result, after, ran, formats⟩
  have performs : runIn (perform (wantsPlain || isPlain)
      ⟨.format paths destination indentSize, chosen, isPlain⟩ :
        Work (StateM World) Bool).run world = (result, after) := ran
  rw [run, reads]
  dsimp only
  rw [runIn_bind, performs]
  cases result with
  | ok isFine => exact formats
  | error trouble =>
      exact formats.printing rfl

end Whole

end Command
end GrammarBook
