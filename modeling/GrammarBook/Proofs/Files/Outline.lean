import GrammarBook.Files.World

namespace GrammarBook

/-!
# Outlines of worlds

Writing a text changes what one file holds and nothing else. Which files and directories there are,
where paths lead, and what is found from there, can all be told from the outline of a world, in
which every file is empty and nothing has been printed; and writing keeps the outline.
-/

namespace FileTree

variable {tree : FileTree} {path place : List String} {content : Content}

/-- The tree with nothing in its files. -/
def outline (tree : FileTree) : FileTree :=
  { tree with files := tree.files.map fun file => (file.1, .text "") }

theorem isSome_content?_outline :
    (tree.outline.content? path).isSome = (tree.content? path).isSome := by
  simp only [content?, outline, List.find?_map, Option.isSome_map]
  rfl

theorem isDirectory_outline : tree.outline.isDirectory path = tree.isDirectory path := by
  rw [isDirectory, isDirectory, outline, List.any_map]
  rfl

theorem lookAt?_outline : tree.outline.lookAt? path = tree.lookAt? path := by
  rw [lookAt?, lookAt?, isSome_content?_outline, isDirectory_outline]

theorem follow_outline : tree.outline.follow = tree.follow := by
  funext place part
  simp only [follow, isSome_content?_outline, lookAt?_outline]

theorem filesBelow_outline : tree.outline.filesBelow path = tree.filesBelow path := by
  rw [filesBelow, filesBelow, outline, List.filterMap_map]
  rfl

/-! ## Replaced contents -/

theorem outline_replace : (tree.replace path content).outline = tree.outline := by
  rw [outline, replace, outline, List.map_map]
  refine congrArg (FileTree.mk · tree.directories) (List.map_congr_left fun file _ => ?_)
  by_cases same : file.1 = path <;> simp [same]

theorem content?_replace : (tree.replace path content).content? place =
    if place = path then (tree.content? place).map fun _ => content else tree.content? place := by
  have keeps : ((·.1 == place) ∘ fun file : List String × Content =>
      if file.1 = path then (path, content) else file) = (·.1 == place) := by
    funext file
    by_cases same : file.1 = path <;> simp [same]
  rw [content?, replace, List.find?_map, keeps, content?]
  cases found : tree.files.find? (·.1 == place) with
  | none => simp
  | some file =>
      have isThere : file.1 = place := by simpa using List.find?_some found
      by_cases same : place = path <;> simp [isThere, same]

end FileTree

namespace World

variable {world before after : World} {path text : String} {place : List String}

/-- The world with nothing in its files and nothing printed. -/
def outline (world : World) : World :=
  { world with tree := world.tree.outline, output := "", errors := "" }

def silent (world : World) : World := { world with output := "", errors := "" }

theorem outline_silent (world : World) : world.silent.outline = world.outline := rfl

theorem locate_outline : world.outline.locate path = world.locate path := by
  simp only [locate, outline, FileTree.follow_outline]

theorem lookAt?_outline : world.outline.lookAt? path = world.lookAt? path := by
  rw [lookAt?, locate_outline, lookAt?]
  exact congrArg _ (funext fun _ => FileTree.lookAt?_outline)

theorem filesBelow_outline : world.outline.filesBelow path = world.filesBelow path := by
  rw [filesBelow, filesBelow, locate_outline]
  cases world.locate path with
  | error problem => rfl
  | ok place => exact congrArg _ FileTree.filesBelow_outline

theorem upwards_outline : world.outline.upwards path = world.upwards path := by
  rw [upwards, locate_outline]
  rfl

/-- Worlds with the same outline have the same ways. -/
theorem locate_congr (same : after.outline = before.outline) :
    after.locate path = before.locate path := by
  rw [← locate_outline, same, locate_outline]

theorem readOnly_congr (same : after.outline = before.outline) :
    after.readOnly = before.readOnly := by
  have parts := congrArg World.readOnly same
  exact parts

/-! ## Worlds apart from what was printed -/

theorem outline_of_silent (kept : after.silent = before.silent) :
    after.outline = before.outline := by
  rw [← outline_silent, kept, outline_silent]

theorem tree_of_silent (kept : after.silent = before.silent) : after.tree = before.tree := by
  have parts := congrArg World.tree kept
  exact parts

/-! ## Texts -/

theorem readText_eq_ok_iff : world.readText path = .ok text ↔
    ∃ place, world.locate path = .ok place ∧ world.tree.content? place = some (.text text) := by
  rw [readText]
  cases world.locate path with
  | error problem => simp [bind, Except.bind]
  | ok place =>
      cases found : world.tree.content? place with
      | none => simp [bind, Except.bind, found]
      | some content => cases content <;> simp [bind, Except.bind, found]

theorem readText_congr (same : after.outline = before.outline)
    (kept : ∀ place, before.locate path = .ok place →
      after.tree.content? place = before.tree.content? place) :
    after.readText path = before.readText path := by
  rw [readText, readText, locate_congr same]
  cases located : before.locate path with
  | error problem => rfl
  | ok place =>
      simp only [bind, Except.bind, kept place located]

theorem readText_of_silent (kept : after.silent = before.silent) :
    after.readText path = before.readText path :=
  readText_congr (outline_of_silent kept) fun place _ => by rw [tree_of_silent kept]

/-- A text has been written in a place, and nothing else has changed. -/
structure IsWritten (before : World) (place : List String) (text : String) (after : World) :
    Prop where
  outline : after.outline = before.outline
  here : after.tree.content? place = some (.text text)
  elsewhere : ∀ other, other ≠ place → after.tree.content? other = before.tree.content? other

theorem isWritten_replace {content : Content} (known : before.tree.content? place = some content) :
    IsWritten before place text { before with tree := before.tree.replace place (.text text) } where
  outline := by
    rw [World.outline, FileTree.outline_replace]
    rfl
  here := by
    rw [FileTree.content?_replace, if_pos rfl, known]
    rfl
  elsewhere := fun other different => by
    rw [FileTree.content?_replace, if_neg different]

theorem IsWritten.printing {later : World} (written : IsWritten before place text after)
    (kept : later.silent = after.silent) : IsWritten before place text later where
  outline := (outline_of_silent kept).trans written.outline
  here := by
    rw [tree_of_silent kept]
    exact written.here
  elsewhere := by
    rw [tree_of_silent kept]
    exact written.elsewhere

/-- A file that is not protected can be written. -/
theorem exists_writeText {content : Content} (located : before.locate path = .ok place)
    (known : before.tree.content? place = some content) (writable : place ∉ before.readOnly)
    (text : String) : ∃ after, before.writeText path text = .ok after := by
  rw [writeText, located]
  simp only [bind, Except.bind, known, if_neg writable]
  exact ⟨_, rfl⟩

theorem isWritten_of_writeText (written : before.writeText path text = .ok after) :
    ∃ place, before.locate path = .ok place ∧ IsWritten before place text after := by
  rw [writeText] at written
  cases located : before.locate path with
  | error problem =>
      rw [located] at written
      cases written
  | ok place =>
      simp only [located, bind, Except.bind] at written
      split at written
      · rename_i content known
        split at written
        · cases written
        · cases written
          exact ⟨place, rfl, isWritten_replace known⟩
      · cases written

end World
end GrammarBook
