import GrammarBook.Command.Documents
import GrammarBook.Proofs.Files.Outline

namespace GrammarBook
namespace Command

/-!
# Questions

Before a command works on documents it finds them and its settings. Finding documents, and finding
the settings file, asks only for what the outline of the world tells, and changes nothing. Of the
settings file the text is asked as well.
-/

def runIn {α : Type} (work : StateM World α) (world : World) : α × World := work.run world

/-- What work answers in a world. -/
def ask {α : Type} (work : StateM World α) (world : World) : α := (runIn work world).1

/-- Work that changes nothing and that only asks for the outline of the world. -/
structure IsQuestion {α : Type} (work : StateM World α) : Prop where
  keeps : ∀ world, runIn work world = (ask work world, world)
  outlined : ∀ world, ask work world.outline = ask work world

section Questions

variable {α β : Type}

theorem runIn_bind (first : StateM World α) (next : α → StateM World β) (world : World) :
    runIn (first >>= next) world = runIn (next (runIn first world).1) (runIn first world).2 := rfl

theorem runIn_lift (work : StateM World α) (world : World) :
    runIn (liftM work : Work (StateM World) α).run world =
      (.ok (runIn work world).1, (runIn work world).2) := rfl

theorem runIn_workBind (first : Work (StateM World) α) (next : α → Work (StateM World) β)
    (world : World) : runIn (first >>= next).run world =
      match runIn first.run world with
      | (.ok value, after) => runIn (next value).run after
      | (.error trouble, after) => (.error trouble, after) := by
  rw [ExceptT.run_bind, runIn_bind]
  rcases runIn first.run world with ⟨_ | _, _⟩ <;> rfl

/-- Asking for something that the outline tells. -/
theorem isQuestion_get {answer : World → α}
    (outlined : ∀ world, answer world.outline = answer world) :
    IsQuestion (do return answer (← get)) where
  keeps _ := rfl
  outlined := outlined

theorem isQuestion_pure (value : α) : IsQuestion (pure value) where
  keeps _ := rfl
  outlined _ := rfl

theorem IsQuestion.bind {first : StateM World α} {next : α → StateM World β}
    (asked : IsQuestion first) (others : ∀ value, IsQuestion (next value)) :
    IsQuestion (first >>= next) := by
  have goesOn (world : World) :
      runIn (first >>= next) world = runIn (next (ask first world)) world := by
    rw [runIn_bind, asked.keeps]
  constructor
  · intro world
    rw [ask, goesOn, (others _).keeps]
  · intro world
    rw [ask, ask, goesOn, goesOn, asked.outlined]
    exact (others _).outlined world

theorem IsQuestion.lift {asking : StateM World α} (asked : IsQuestion asking) :
    IsQuestion (liftM asking : Work (StateM World) α).run :=
  asked.bind fun value => isQuestion_pure (Except.ok value)

theorem IsQuestion.workBind {first : Work (StateM World) α} {next : α → Work (StateM World) β}
    (asked : IsQuestion first.run) (others : ∀ value, IsQuestion (next value).run) :
    IsQuestion (first >>= next).run := by
  rw [ExceptT.run_bind]
  refine asked.bind fun value => ?_
  cases value with
  | ok value => exact others value
  | error trouble => exact isQuestion_pure _

theorem isQuestion_mapM {work : α → Work (StateM World) β}
    (asked : ∀ value, IsQuestion (work value).run) (values : List α) : IsQuestion (values.mapM work).run := by
  induction values with
  | nil => exact isQuestion_pure _
  | cons value values ih =>
      rw [List.mapM_cons]
      exact (asked value).workBind fun _ => ih.workBind fun _ => isQuestion_pure _

end Questions

/-! ## Finding documents -/

theorem isQuestion_lookAt? (path : String) :
    IsQuestion (Host.lookAt? path : StateM World (Option EntryKind)) :=
  isQuestion_get fun _ => World.lookAt?_outline

theorem isQuestion_isFile (path : String) : IsQuestion (Host.isFile path : StateM World Bool) :=
  (isQuestion_lookAt? path).bind fun _ => isQuestion_pure _

theorem isQuestion_filesBelow (path : String) :
    IsQuestion (Host.filesBelow path : StateM World (List String)) :=
  isQuestion_get fun _ => World.filesBelow_outline

theorem isQuestion_upwards (path : String) :
    IsQuestion (Host.upwards path : StateM World (Except FileProblem (List String))) :=
  isQuestion_get fun _ => World.upwards_outline

theorem isQuestion_documentsAt (path : String) :
    IsQuestion (documentsAt path : Work (StateM World) (List String)).run := by
  refine (isQuestion_lookAt? path).lift.workBind fun found => ?_
  match found with
  | some .file => exact isQuestion_pure _
  | some .directory =>
      exact (isQuestion_filesBelow path).lift.workBind fun _ => isQuestion_pure _
  | none => exact isQuestion_pure _

theorem isQuestion_documents (paths : List String) :
    IsQuestion (documents paths : Work (StateM World) (List String)).run :=
  (isQuestion_mapM isQuestion_documentsAt paths).workBind fun _ => isQuestion_pure _

/-! ## Finding settings -/

theorem isQuestion_settingsStart (paths : List String) :
    IsQuestion (settingsStart paths : StateM World String) := by
  cases paths with
  | nil => exact isQuestion_pure _
  | cons path others =>
      refine (isQuestion_isFile path).bind fun isFile => ?_
      cases isFile <;> exact isQuestion_pure _

theorem isQuestion_firstFile? (paths : List String) :
    IsQuestion (Settings.firstFile? paths : StateM World (Option String)) := by
  induction paths with
  | nil => exact isQuestion_pure _
  | cons path others ih =>
      refine (isQuestion_isFile path).bind fun isFile => ?_
      cases isFile with
      | true => exact isQuestion_pure _
      | false => exact ih

theorem isQuestion_discover? (start : String) :
    IsQuestion (Settings.discover? start : StateM World (Except Fault (Option String))) := by
  refine (isQuestion_upwards start).bind fun directories => ?_
  cases directories with
  | error problem => exact isQuestion_pure _
  | ok directories => exact (isQuestion_firstFile? _).bind fun _ => isQuestion_pure _

/-! ## Loading settings -/

/-- The settings in a file that has been read, or not. -/
def settingsIn (path : String) : Except FileProblem String → Except Fault Settings
  | .error problem => .error (.unloadable path (.file path problem))
  | .ok content =>
    ((Settings.read path content).mapError Fault.settings).mapError (Fault.unloadable path)

/-- The settings file that is named, or else the nearest one. -/
def settingsFile? (chosen : Option String) (start : String) (world : World) : Option String :=
  chosen.or (ask (Settings.discover? start) world).toOption.join

section Loading

variable {before after : World}

theorem runIn_readText (path : String) (world : World) :
    runIn (Host.readText path) world = (world.readText path, world) := rfl

theorem runIn_loadChosen (path : String) (world : World) :
    runIn (Settings.loadChosen path) world = (settingsIn path (world.readText path), world) := by
  rw [Settings.loadChosen, runIn_bind, Settings.load, runIn_bind, runIn_readText]
  cases world.readText path <;> rfl

theorem runIn_obtain (chosen : Option String) (start : String) (world : World) :
    runIn (Settings.obtain chosen start) world =
      (match chosen with
        | some path =>
          if (world.lookAt? path).isNone then .error (.settings (.absent path))
          else settingsIn path (world.readText path)
        | none =>
          match ask (Settings.discover? start) world with
          | .error fault => .error fault
          | .ok none => .ok {}
          | .ok (some path) => settingsIn path (world.readText path), world) := by
  cases chosen with
  | some path =>
      have asked : runIn (Host.lookAt? path) world = (world.lookAt? path, world) := rfl
      rw [Settings.obtain, runIn_bind, asked]
      dsimp only
      cases world.lookAt? path with
      | none => rfl
      | some found => exact runIn_loadChosen path world
  | none =>
      rw [Settings.obtain, runIn_bind, (isQuestion_discover? start).keeps]
      rcases ask (Settings.discover? start) world with fault | _ | path
      · rfl
      · rfl
      · exact runIn_loadChosen path world

/-- Settings are the same where the settings file is. -/
theorem ask_obtain_congr (same : after.outline = before.outline) {chosen : Option String}
    {start : String} (kept : ∀ file place, settingsFile? chosen start before = some file →
      before.locate file = .ok place → after.tree.content? place = before.tree.content? place) :
    ask (Settings.obtain chosen start) after = ask (Settings.obtain chosen start) before := by
  have found (path : String) : after.lookAt? path = before.lookAt? path := by
    rw [← World.lookAt?_outline, same, World.lookAt?_outline]
  have discovered :
      ask (Settings.discover? start) after = ask (Settings.discover? start) before := by
    rw [← (isQuestion_discover? start).outlined, same, (isQuestion_discover? start).outlined]
  rw [ask, ask, runIn_obtain, runIn_obtain]
  cases chosen with
  | some path =>
      have read := World.readText_congr same fun place => kept path place rfl
      simp only [found, read]
  | none =>
      simp only [discovered]
      rcases answer : ask (Settings.discover? start) before with fault | _ | path
      · rfl
      · rfl
      · have read := World.readText_congr same fun place =>
          kept path place (by rw [settingsFile?, answer]; rfl)
        simp only [read]

end Loading

/-! ## Before the work on documents -/

theorem runIn_obtainSettings (chosen : Option String) (paths : List String) (world : World) :
    runIn (obtainSettings chosen paths : Work (StateM World) Settings).run world =
      ((ask (Settings.obtain chosen (ask (settingsStart paths) world)) world).mapError
        Trouble.faulty, world) := by
  have keeps (start : String) : runIn (Settings.obtain chosen start) world =
      (ask (Settings.obtain chosen start) world, world) := by
    rw [ask, runIn_obtain]
  rw [obtainSettings, runIn_workBind, runIn_lift, (isQuestion_settingsStart paths).keeps]
  dsimp only
  rw [runIn_workBind, runIn_lift, keeps]
  dsimp only
  cases ask (Settings.obtain chosen (ask (settingsStart paths) world)) world <;> rfl

theorem keeps_obtainSettings (chosen : Option String) (paths : List String) (world : World) :
    runIn (obtainSettings chosen paths : Work (StateM World) Settings).run world =
      (ask (obtainSettings chosen paths).run world, world) := by
  rw [ask, runIn_obtainSettings]

theorem ask_obtainSettings_congr {chosen : Option String} {paths : List String}
    {before after : World} (same : after.outline = before.outline)
    (kept : ∀ file place,
      settingsFile? chosen (ask (settingsStart paths) before) before = some file →
      before.locate file = .ok place → after.tree.content? place = before.tree.content? place) :
    ask (obtainSettings chosen paths : Work (StateM World) Settings).run after =
      ask (obtainSettings chosen paths : Work (StateM World) Settings).run before := by
  have starts : ask (settingsStart paths) after = ask (settingsStart paths) before := by
    rw [← (isQuestion_settingsStart paths).outlined, same,
      (isQuestion_settingsStart paths).outlined]
  rw [ask, ask, runIn_obtainSettings, runIn_obtainSettings, starts, ask_obtain_congr same kept]

end Command
end GrammarBook
