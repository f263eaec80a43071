import GrammarBook.Proofs.Command.Formatting
import Mathlib.Control.Monad.Basic

namespace GrammarBook
namespace Command

/-!
# Formatting in place

A command that formats documents in place changes nothing but the documents that it finds, can read
and finds valid, and leaves each of them with its layout; where it ends early, the documents that it
has not come to are as they were. A layout is its own layout, so a document that is met again stays
as it is, and where all went well the same command finds nothing to change when it only compares.
-/

/-- Every place holds what it held, or the layout of that where one of the files is there. -/
structure IsFormattedFrom (settings : Settings) (files : List String) (before after : World) :
    Prop where
  outline : after.outline = before.outline
  places : ∀ place, after.tree.content? place = before.tree.content? place ∨
    ∃ path ∈ files, before.locate path = .ok place ∧ ∃ source text,
      before.tree.content? place = some (.text source) ∧ IsLayoutOf settings source text ∧
        after.tree.content? place = some (.text text)

/-- A file that holds its own layout. -/
def IsSettled (settings : Settings) (path : String) (world : World) : Prop :=
  ∃ text, world.readText path = .ok text ∧ IsLayoutOf settings text text

variable {settings : Settings} {destination : Destination} {path other source text : String}
  {files : List String} {before world middle after : World}

theorem isSettled_of_silent (kept : after.silent = world.silent) :
    IsSettled settings path after ↔ IsSettled settings path world := by
  rw [IsSettled, World.readText_of_silent kept, IsSettled]

/-! ## What a step changes -/

/-- A document has been replaced by its layout, which is another text. -/
structure Replaces (settings : Settings) (path source text : String) (world after : World)
    (place : List String) : Prop where
  located : world.locate path = .ok place
  held : world.tree.content? place = some (.text source)
  isLayout : IsLayoutOf settings source text
  different : text ≠ source
  written : World.IsWritten world place text after

theorem exists_replaces (read : world.readText path = .ok source)
    (isLayout : IsLayoutOf settings source text) (different : text ≠ source)
    (written : world.writeText path text = .ok middle) (kept : after.silent = middle.silent) :
    ∃ place, Replaces settings path source text world after place := by
  rcases World.readText_eq_ok_iff.mp read with ⟨place, located, held⟩
  rcases World.isWritten_of_writeText written with ⟨target, locatedToo, isWritten⟩
  rw [located] at locatedToo
  cases locatedToo
  exact ⟨place, located, held, isLayout, different, isWritten.printing kept⟩

/-- A step changes nothing, or it replaces a document by its layout. -/
theorem Step.effect {result : Except Trouble Verdict}
    (step : Step settings destination path world result after) :
    after.silent = world.silent ∨ destination = .file ∧
      ∃ source text place, Replaces settings path source text world after place := by
  cases step with
  | unreadable | unprocessable | unwritable => exact .inl rfl
  | faulty _ _ _ kept => exact .inl kept
  | canonical _ _ kept => exact .inl kept
  | printed _ _ _ kept => exact .inl kept
  | differs _ _ _ _ kept => exact .inl kept
  | written writes read isLayout different written kept =>
      exact .inr ⟨writes, _, _, exists_replaces read isLayout different written kept⟩

namespace IsFormattedFrom

theorem refl (settings : Settings) (files : List String) (world : World) :
    IsFormattedFrom settings files world world where
  outline := rfl
  places _ := .inl rfl

theorem printing (formatted : IsFormattedFrom settings files before world)
    (kept : after.silent = world.silent) : IsFormattedFrom settings files before after where
  outline := (World.outline_of_silent kept).trans formatted.outline
  places := by
    rw [World.tree_of_silent kept]
    exact formatted.places

theorem step {result : Except Trouble Verdict}
    (formatted : IsFormattedFrom settings files before world) (listed : path ∈ files)
    (step : Step settings destination path world result after) :
    IsFormattedFrom settings files before after := by
  rcases step.effect with kept | ⟨_, source, text, place, replaces⟩
  · exact formatted.printing kept
  · refine ⟨replaces.written.outline.trans formatted.outline, fun target => ?_⟩
    by_cases here : target = place
    · subst here
      rcases formatted.places target with same | ⟨_, _, _, _, _, _, laidOut, now⟩
      · refine .inr ⟨path, listed, ?_, source, text, same ▸ replaces.held, replaces.isLayout,
          replaces.written.here⟩
        rw [← World.locate_congr formatted.outline]
        exact replaces.located
      · -- What a document was replaced by is its own layout, so it is not replaced again.
        rw [replaces.held] at now
        cases now
        exact absurd (laidOut.self.unique replaces.isLayout) replaces.different
    · rw [replaces.written.elsewhere target here]
      exact formatted.places target

theorem steps {paths : List String} {result : Except Trouble (List Verdict)}
    (steps : Steps settings destination paths world result after)
    (formatted : IsFormattedFrom settings files before world) (listed : paths ⊆ files) :
    IsFormattedFrom settings files before after := by
  induction steps with
  | done => exact formatted
  | stopped step => exact formatted.step (listed List.mem_cons_self) step
  | next step _ ih =>
      exact ih (formatted.step (listed List.mem_cons_self) step)
        fun _ member => listed (List.mem_cons_of_mem _ member)

end IsFormattedFrom

/-! ## Settled files -/

/-- What holds its own layout stays as it is, whatever is formatted. -/
theorem IsSettled.step {result : Except Trouble Verdict}
    (settled : IsSettled settings other world)
    (step : Step settings destination path world result after) :
    IsSettled settings other after := by
  rcases step.effect with kept | ⟨_, source, text, place, replaces⟩
  · exact (isSettled_of_silent kept).mpr settled
  · rcases settled with ⟨held, read, own⟩
    have kept : after.readText other = world.readText other := by
      refine World.readText_congr replaces.written.outline fun target located => ?_
      refine replaces.written.elsewhere target ?_
      rintro rfl
      rcases World.readText_eq_ok_iff.mp read with ⟨_, locatedToo, content⟩
      rw [located] at locatedToo
      cases locatedToo
      rw [replaces.held] at content
      cases content
      exact replaces.different (own.unique replaces.isLayout)
    exact ⟨held, kept.trans read, own⟩

theorem IsSettled.steps {result : Except Trouble (List Verdict)}
    (steps : Steps settings destination files world result after)
    (settled : IsSettled settings other world) : IsSettled settings other after := by
  induction steps with
  | done => exact settled
  | stopped step => exact settled.step step
  | next step _ ih => exact ih (settled.step step)

/-- A step that ends well in place leaves a settled file. -/
theorem Step.settles (step : Step settings .file path world (.ok .fine) after) :
    IsSettled settings path after := by
  cases step with
  | canonical read isLayout kept => exact (isSettled_of_silent kept).mpr ⟨_, read, isLayout⟩
  | printed prints => cases prints
  | written _ read isLayout different written kept =>
      rcases exists_replaces read isLayout different written kept with ⟨place, replaces⟩
      have located := (World.locate_congr replaces.written.outline).trans replaces.located
      exact ⟨_, World.readText_eq_ok_iff.mpr ⟨place, located, replaces.written.here⟩,
        replaces.isLayout.self⟩

theorem exitOf_map_cons {verdict : Verdict} {result : Except Trouble (List Verdict)} :
    exitOf (result.map (verdict :: ·)) = 0 ↔ verdict = .fine ∧ exitOf result = 0 := by
  cases result with
  | error trouble => simp [exitOf, Except.map]
  | ok verdicts => simp [exitOf, Except.map]

theorem Steps.settles {result : Except Trouble (List Verdict)}
    (steps : Steps settings .file files world result after) (succeeded : exitOf result = 0) :
    ∀ path ∈ files, IsSettled settings path after := by
  induction steps with
  | done => simp
  | stopped => cases succeeded
  | next step steps ih =>
      rcases exitOf_map_cons.mp succeeded with ⟨rfl, others⟩
      exact List.forall_mem_cons.mpr ⟨step.settles.steps steps, ih others⟩

/-! ## Fit documents -/

/-- A document that can be read and is valid, and that can be written unless it holds its layout. -/
def IsFit (settings : Settings) (path : String) (world : World) : Prop :=
  ∃ place source text, world.locate path = .ok place ∧
    world.tree.content? place = some (.text source) ∧ IsLayoutOf settings source text ∧
    (text ≠ source → place ∉ world.readOnly)

theorem IsFit.step {result : Except Trouble Verdict} (fit : IsFit settings other world)
    (step : Step settings destination path world result after) : IsFit settings other after := by
  rcases fit with ⟨spot, held, laid, located, content, isLayout, writable⟩
  rcases step.effect with kept | ⟨_, source, text, place, replaces⟩
  · have same := World.outline_of_silent kept
    refine ⟨spot, held, laid, (World.locate_congr same).trans located, ?_, isLayout, ?_⟩
    · rw [World.tree_of_silent kept]
      exact content
    · rw [World.readOnly_congr same]
      exact writable
  · have same := replaces.written.outline
    have locatedAfter := (World.locate_congr same).trans located
    by_cases here : spot = place
    · -- What another path to the document has written there is its layout.
      subst here
      exact ⟨spot, text, text, locatedAfter, replaces.written.here, replaces.isLayout.self,
        absurd rfl⟩
    · refine ⟨spot, held, laid, locatedAfter, ?_, isLayout, ?_⟩
      · rw [replaces.written.elsewhere spot here]
        exact content
      · rw [World.readOnly_congr same]
        exact writable

theorem Step.fine_of_isFit {result : Except Trouble Verdict}
    (step : Step settings .file path world result after) (fit : IsFit settings path world) :
    result = .ok .fine := by
  rcases fit with ⟨place, source, text, located, content, isLayout, writable⟩
  have read : world.readText path = .ok source :=
    World.readText_eq_ok_iff.mpr ⟨place, located, content⟩
  have accepted {held : String} {fault : Fault} (readAgain : world.readText path = .ok held) :
      readValid settings held ≠ .error fault := by
    rcases isLayout with ⟨document, accepted, _⟩
    rw [read] at readAgain
    cases readAgain
    simp [accepted]
  cases step with
  | unreadable unread =>
      rw [read] at unread
      cases unread
  | unprocessable readAgain rejected => exact absurd rejected (accepted readAgain)
  | faulty readAgain rejected => exact absurd rejected (accepted readAgain)
  | canonical => rfl
  | printed => rfl
  | differs compares => cases compares
  | unwritable _ readAgain isLayoutToo different unwritten =>
      rw [read] at readAgain
      cases readAgain
      rw [isLayout.unique isLayoutToo] at different unwritten
      rcases World.exists_writeText located content (writable different) text with ⟨_, written⟩
      rw [written] at unwritten
      cases unwritten
  | written => rfl

theorem Steps.succeeds {result : Except Trouble (List Verdict)}
    (steps : Steps settings .file files world result after)
    (fit : ∀ path ∈ files, IsFit settings path world) : exitOf result = 0 := by
  induction steps with
  | done => rfl
  | stopped step => cases step.fine_of_isFit (fit _ List.mem_cons_self)
  | next step _ ih =>
      rcases List.forall_mem_cons.mp fit with ⟨first, others⟩
      cases step.fine_of_isFit first
      exact exitOf_map_cons.mpr ⟨rfl, ih fun path member => (others path member).step step⟩

/-! ## Comparing only -/

theorem Step.keeps {result : Except Trouble Verdict}
    (step : Step settings .nowhere path world result after) : after.silent = world.silent := by
  rcases step.effect with kept | ⟨writes, _⟩
  · exact kept
  · cases writes

/-- A comparison is fine where the file holds its own layout. -/
theorem Step.fine_iff {result : Except Trouble Verdict}
    (step : Step settings .nowhere path world result after) :
    result = .ok .fine ↔ IsSettled settings path world := by
  have rejects {source : String} {fault : Fault} (read : world.readText path = .ok source)
      (rejected : readValid settings source = .error fault) : ¬ IsSettled settings path world := by
    rintro ⟨text, readAgain, document, accepted, _⟩
    rw [read] at readAgain
    cases readAgain
    rw [rejected] at accepted
    cases accepted
  cases step with
  | unreadable unread =>
      refine iff_of_false nofun ?_
      rintro ⟨text, read, _⟩
      rw [unread] at read
      cases read
  | unprocessable read rejected => exact iff_of_false nofun (rejects read rejected)
  | unwritable writes => cases writes
  | faulty read rejected => exact iff_of_false nofun (rejects read rejected)
  | canonical read isLayout => exact iff_of_true rfl ⟨_, read, isLayout⟩
  | printed prints => cases prints
  | differs _ read isLayout different =>
      refine iff_of_false nofun ?_
      rintro ⟨text, readAgain, own⟩
      rw [read] at readAgain
      cases readAgain
      exact different (own.unique isLayout)
  | written writes => cases writes

theorem Steps.keeps {result : Except Trouble (List Verdict)}
    (steps : Steps settings .nowhere files world result after) : after.silent = world.silent := by
  induction steps with
  | done => rfl
  | stopped step => exact step.keeps
  | next step _ ih => exact ih.trans step.keeps

theorem Steps.succeeds_iff {result : Except Trouble (List Verdict)}
    (steps : Steps settings .nowhere files world result after) :
    exitOf result = 0 ↔ ∀ path ∈ files, IsSettled settings path world := by
  induction steps with
  | done => simp [exitOf]
  | stopped step =>
      refine iff_of_false nofun fun settled => ?_
      cases step.fine_iff.mpr (settled _ List.mem_cons_self)
  | next step steps ih =>
      have here := step.fine_iff
      rw [Except.ok.injEq] at here
      rw [exitOf_map_cons, here, ih, List.forall_mem_cons]
      simp only [isSettled_of_silent step.keeps]

/-! ## Runs in place and runs that compare -/

section Runs

variable {chosen : Option String} {paths : List String} {indentSize : Option Nat} {exit : Nat}

theorem WorksWith.unique {others : List String} {more : Settings}
    (works : WorksWith chosen paths indentSize world files settings)
    (worksToo : WorksWith chosen paths indentSize world others more) :
    others = files ∧ more = settings := by
  rcases works with ⟨listed, found, loaded, rfl⟩
  rcases worksToo with ⟨listedToo, foundToo, loadedToo, rfl⟩
  rw [listed] at listedToo
  rw [loaded] at loadedToo
  cases listedToo
  cases loadedToo
  exact ⟨rfl, rfl⟩

/-- The settings file that a command on paths reads is none of the documents that it finds. -/
def SettingsApart (chosen : Option String) (paths : List String) (world : World) : Prop :=
  ∀ files file path place, ask (documents paths).run world = .ok files →
    settingsFile? chosen (ask (settingsStart paths) world) world = some file →
    path ∈ files → world.locate path = .ok place → world.locate file ≠ .ok place

/-- After documents have been formatted, the same documents and settings are found again. -/
theorem WorksWith.again (works : WorksWith chosen paths indentSize before files settings)
    (apart : SettingsApart chosen paths before)
    (formatted : IsFormattedFrom settings files before after) :
    WorksWith chosen paths indentSize after files settings := by
  rcases works with ⟨listed, found, loaded, rfl⟩
  refine ⟨?_, found, ?_, rfl⟩
  · rw [← (isQuestion_documents paths).outlined, formatted.outline,
      (isQuestion_documents paths).outlined]
    exact listed
  · rw [ask_obtainSettings_congr formatted.outline ?_]
    · exact loaded
    · intro file place isSettings located
      rcases formatted.places place with same | ⟨path, member, locatedToo, _⟩
      · exact same
      · exact absurd located (apart files file path place listed isSettings member locatedToo)

theorem Formats.cases {exit : Nat}
    (formats : Formats chosen paths destination indentSize world exit after) :
    (exit = 1 ∧ after.silent = world.silent ∧
        ∀ files settings, ¬ WorksWith chosen paths indentSize world files settings) ∨
      ∃ files settings result middle, WorksWith chosen paths indentSize world files settings ∧
        Steps settings destination files world result middle ∧ after.silent = middle.silent ∧
        exit = exitOf result := by
  cases formats with
  | unstarted nothing kept => exact .inl ⟨rfl, kept, nothing⟩
  | started works steps kept => exact .inr ⟨_, _, _, _, works, steps, kept, rfl⟩

/-- A run that compares changes nothing. It succeeds where it can start and every document holds its
own layout. -/
theorem Formats.compares (formats : Formats chosen paths .nowhere indentSize world exit after) :
    after.silent = world.silent ∧
      (exit = 0 ↔ ∃ files settings, WorksWith chosen paths indentSize world files settings ∧
        ∀ path ∈ files, IsSettled settings path world) := by
  rcases formats.cases with ⟨rfl, kept, nothing⟩ |
    ⟨files, settings, result, middle, works, steps, kept, rfl⟩
  · refine ⟨kept, iff_of_false nofun ?_⟩
    rintro ⟨files, settings, works, _⟩
    exact nothing files settings works
  · refine ⟨kept.trans steps.keeps, ?_⟩
    rw [steps.succeeds_iff]
    constructor
    · exact fun settled => ⟨files, settings, works, settled⟩
    · rintro ⟨others, more, worksToo, settled⟩
      rcases works.unique worksToo with ⟨rfl, rfl⟩
      exact settled

/-- A run in place succeeds where every document that it finds is fit. -/
theorem Formats.succeeds (formats : Formats chosen paths .file indentSize world exit after)
    (works : WorksWith chosen paths indentSize world files settings)
    (fit : ∀ path ∈ files, IsFit settings path world) : exit = 0 := by
  rcases formats.cases with ⟨_, _, nothing⟩ | ⟨others, more, result, middle, worksToo, steps, _, rfl⟩
  · exact absurd works (nothing files settings)
  · rcases works.unique worksToo with ⟨rfl, rfl⟩
    exact steps.succeeds fit

/-- A run in place that succeeds leaves settled documents, which the same command finds again. -/
theorem Formats.converges (formats : Formats chosen paths .file indentSize world 0 after)
    (apart : SettingsApart chosen paths world) :
    ∃ files settings, WorksWith chosen paths indentSize after files settings ∧
      ∀ path ∈ files, IsSettled settings path after := by
  rcases formats.cases with ⟨absurdity, _⟩ |
    ⟨files, settings, result, middle, works, steps, kept, succeeded⟩
  · cases absurdity
  · have formatted := (IsFormattedFrom.steps steps (.refl settings files world)
      (List.Subset.refl files)).printing kept
    refine ⟨files, settings, works.again apart formatted, fun path member => ?_⟩
    exact (isSettled_of_silent kept).mpr (steps.settles succeeded.symm path member)

/-- What a run in place may have done. The places that are not those of its documents are as they were,
and so are the documents that cannot be read or are not valid. -/
structure IsSafe (settings : Settings) (files : List String) (before after : World) : Prop
    extends IsFormattedFrom settings files before after where
  unlisted : ∀ place, (∀ path ∈ files, before.locate path ≠ .ok place) →
    after.tree.content? place = before.tree.content? place
  rejected : ∀ place source fault, before.tree.content? place = some (.text source) →
    readValid settings source = .error fault →
    after.tree.content? place = before.tree.content? place

theorem IsFormattedFrom.isSafe (formatted : IsFormattedFrom settings files before after) :
    IsSafe settings files before after where
  toIsFormattedFrom := formatted
  unlisted := by
    intro place unlisted
    rcases formatted.places place with same | ⟨path, member, located, _⟩
    · exact same
    · exact absurd located (unlisted path member)
  rejected := by
    intro place source fault content rejected
    rcases formatted.places place with same | ⟨_, _, _, text, _, first, ⟨document, accepted, _⟩, _⟩
    · exact same
    · rw [content] at first
      cases first
      rw [rejected] at accepted
      cases accepted

/-- Formatting in place is safe, however it ends: either nothing is touched, or nothing but documents
that are replaced by their layouts. Where it succeeds, the same command succeeds when it only
compares. Comparing touches nothing, and succeeds where every document that is found holds its own
layout. -/
theorem formatting_in_place_converges {writing checking : List String}
    {writesPlain checksPlain : Bool}
    (writes : Line.read writing = .ok ⟨.format paths .file indentSize, chosen, writesPlain⟩)
    (checks : Line.read checking = .ok ⟨.format paths .nowhere indentSize, chosen, checksPlain⟩)
    (wantsPlain : Bool) (world : World) :
    (∀ exit after, runIn (run wantsPlain writing) world = (exit, after) →
      (after.silent = world.silent ∨ ∃ files settings,
        WorksWith chosen paths indentSize world files settings ∧ IsSafe settings files world after) ∧
      (exit = 0 → SettingsApart chosen paths world →
        (runIn (run wantsPlain checking) after).1 = 0)) ∧
    ∀ exit after, runIn (run wantsPlain checking) world = (exit, after) →
      after.silent = world.silent ∧
      (exit = 0 ↔ ∃ files settings, WorksWith chosen paths indentSize world files settings ∧
        ∀ path ∈ files, ∃ source, world.readText path = .ok source ∧
          IsLayoutOf settings source source) := by
  have compares (world : World) := (formats_run checks wantsPlain world).compares
  constructor
  · intro exit after ran
    have formats := formats_run writes wantsPlain world
    rw [ran] at formats
    constructor
    · rcases formats.cases with ⟨_, kept, _⟩ | ⟨files, settings, _, _, works, steps, kept, _⟩
      · exact .inl kept
      · have formatted := (IsFormattedFrom.steps steps (.refl settings files world)
          (List.Subset.refl files)).printing kept
        exact .inr ⟨files, settings, works, formatted.isSafe⟩
    · rintro rfl apart
      exact (compares after).2.mpr (formats.converges apart)
  · intro exit after ran
    have compared := compares world
    rw [ran] at compared
    exact compared

end Runs

/-- A world with one document, and with a file that is none. -/
def smallWorld : World :=
  { tree := { files := [(["a.cdsn"], .text smallSource), (["b.txt"], .bytes [255])] }
    rootName := "/r" }

theorem worksWith_smallWorld : WorksWith none ["a.cdsn"] none smallWorld ["a.cdsn"] {} where
  documents := by decide +kernel
  settings := ⟨{}, by decide +kernel, rfl⟩

theorem settingsApart_smallWorld : SettingsApart none ["a.cdsn"] smallWorld := by
  intro files file path place _ isSettings
  have nowhere :
      settingsFile? none (ask (settingsStart ["a.cdsn"]) smallWorld) smallWorld = none := by
    decide +kernel
  rw [nowhere] at isSettings
  cases isSettings

theorem isLayoutOf_smallText : IsLayoutOf {} smallSource smallText :=
  ⟨Reading.smallDocument, readValid_eq_ok_iff.mpr ⟨parse_smallSource _, by rfl⟩, by rfl⟩

theorem reads_smallSource : smallWorld.readText "a.cdsn" = .ok smallSource := by
  decide +kernel

theorem reads_inPlace : Line.read ["fmt", "--write", "a.cdsn"] =
    .ok ⟨.format ["a.cdsn"] .file none, none, false⟩ := by
  decide +kernel

theorem reads_comparing : Line.read ["fmt", "--check", "a.cdsn"] =
    .ok ⟨.format ["a.cdsn"] .nowhere none, none, false⟩ := by
  decide +kernel

theorem exit_smallWorld : (runIn (run false ["fmt", "--write", "a.cdsn"]) smallWorld).1 = 0 := by
  have fit : IsFit {} "a.cdsn" smallWorld :=
    ⟨["a.cdsn"], smallSource, smallText, by decide +kernel, rfl, isLayoutOf_smallText,
      fun _ => List.not_mem_nil⟩
  refine (formats_run reads_inPlace false smallWorld).succeeds worksWith_smallWorld ?_
  exact List.forall_mem_singleton.mpr fit

/-- The document of the world is found wanting, then formatted, and then found to be fine. -/
theorem smallWorld_converges :
    (runIn (run false ["fmt", "--check", "a.cdsn"]) smallWorld).1 ≠ 0 ∧
      ∃ after, runIn (run false ["fmt", "--write", "a.cdsn"]) smallWorld = (0, after) ∧
        after.tree.content? ["b.txt"] = some (.bytes [255]) ∧
        (runIn (run false ["fmt", "--check", "a.cdsn"]) after).1 = 0 := by
  rcases formatting_in_place_converges reads_inPlace reads_comparing false smallWorld with
    ⟨inPlace, comparing⟩
  constructor
  · intro exit
    rcases (comparing _ _ rfl).2.mp exit with ⟨files, settings, works, settled⟩
    rcases worksWith_smallWorld.unique works with ⟨rfl, rfl⟩
    rcases settled _ (List.mem_singleton_self _) with ⟨source, read, own⟩
    rw [reads_smallSource] at read
    cases read
    exact absurd (own.unique isLayoutOf_smallText) (by decide)
  · obtain ⟨after, ran⟩ : ∃ after,
        runIn (run false ["fmt", "--write", "a.cdsn"]) smallWorld = (0, after) :=
      ⟨_, Prod.ext exit_smallWorld rfl⟩
    rcases inPlace 0 after ran with ⟨safe, converges⟩
    refine ⟨after, ran, ?_, converges rfl settingsApart_smallWorld⟩
    rcases safe with kept | ⟨files, settings, works, safe⟩
    · rw [World.tree_of_silent kept]
      rfl
    · rcases worksWith_smallWorld.unique works with ⟨rfl, rfl⟩
      exact safe.unlisted ["b.txt"] (by decide +kernel)

end Command
end GrammarBook
