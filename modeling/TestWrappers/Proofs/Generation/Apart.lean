import TestWrappers.Proofs.Generation.Whole

/-!
# Test Cases Apart from Wrappers

A layout whose test cases lie apart from its wrappers.

The search for test cases reads one directory: which entries are in it, and which
of them are directories. If neither that directory nor any directory for wrappers
is inside the other, then nothing that the run changes is among what the search
reads. An entry that is a link could still lead there, so links are excluded.

## Main definitions

* `Generation.sourcePlace`: Where test cases are looked for.
* `Generation.Apart`: The test cases lie apart from the wrappers.

## Theorems

* `Generation.Apart.testCases`: The same test cases are found after any change to
  the wrappers.
* `Generation.Apart.undisturbed`: Such a layout is not disturbed by its run.
-/

namespace TestWrappers

namespace Generation

variable {layout : Layout} {tests : List String} {files reached : FileSystem}

/-- The entry is a link. -/
def isLink : Entry → Bool
  | .link _ => true
  | _ => false

/-- The location of the directory in which test cases are looked for. -/
def sourcePlace (layout : Layout) (files : FileSystem) : Location :=
  (sourceDir layout).landing files.workingDirectory

/-- Test cases and wrappers lie apart, and no link is between them. -/
structure Apart (layout : Layout) (files : FileSystem) : Prop where
  /-- The directory of the test cases is named without climbing. -/
  level : Path.Component.up ∉ (sourceDir layout).components
  /-- Nothing around the test cases is a link. -/
  unlinked : files.tree.Unlinked (sourcePlace layout files)
  /-- No test case is a link. -/
  entries : ∀ name ∈ files.tree.names (sourcePlace layout files),
    (files.tree.get? (name :: sourcePlace layout files)).any isLink = false
  /-- No wrappers are inside the directory of the test cases. -/
  outside : ∀ changed ∈ places layout files, changed.isWithin (sourcePlace layout files) = false
  /-- That directory is not among the wrappers. -/
  above : ∀ changed ∈ places layout files, (sourcePlace layout files).isWithin changed = false

namespace Apart

theorem unlinked_entry (h : Apart layout files) (name : Name) :
    files.tree.Unlinked (name :: sourcePlace layout files) := by
  intro outer target hin hlink
  rcases Location.isWithin_cons_iff.mp hin with heq | hrest
  · -- Around the entry is the directory, and the entry itself is none of its links.
    rw [heq] at hlink
    have hfalse := h.entries name (Tree.mem_names.mpr (Option.isSome_of_eq_some hlink))
    rw [hlink] at hfalse
    exact absurd hfalse nofun
  · exact h.unlinked outer target hrest hlink

theorem isWithin_entry (name : Name) : Location.isWithin (name :: sourcePlace layout files)
    (sourcePlace layout files) = true :=
  Location.isWithin_cons name (Location.isWithin_refl _)

theorem above_entry (h : Apart layout files) (name : Name) :
    ∀ changed ∈ places layout files,
      Location.isWithin (name :: sourcePlace layout files) changed = false := by
  intro changed hmem
  refine Bool.eq_false_iff.mpr fun hin => ?_
  rcases Location.isWithin_cons_iff.mp hin with heq | hrest
  · -- A directory for wrappers that is the entry itself would be inside the test cases.
    have hfalse := h.outside changed hmem
    rw [heq, isWithin_entry name] at hfalse
    exact absurd hfalse nofun
  · rw [h.above changed hmem] at hrest
    exact absurd hrest Bool.false_ne_true

/-- An entry of the directory of the test cases does not change. -/
theorem get?_entry (h : Apart layout files)
    (hchange : FileSystem.Confined (places layout files) files reached) (name : Name) :
    reached.tree.get? (name :: sourcePlace layout files) =
      files.tree.get? (name :: sourcePlace layout files) := by
  rcases hchange.outside _ (h.above_entry name) with hsame | ⟨_, _, changed, hmem, hin⟩
  · exact hsame
  · -- Directories that are made around wrappers are not among the test cases.
    have hfalse := h.outside changed hmem
    rw [Location.isWithin_trans hin (isWithin_entry name)] at hfalse
    exact absurd hfalse nofun

/-- What an entry leads to does not change either. -/
theorem isDirectory_entry (h : Apart layout files)
    (hlong : Step.overlong ∉ (sourceDir layout).route.steps)
    (hchange : FileSystem.Confined (places layout files) files reached) (name : Name) :
    reached.isDirectory ((sourceDir layout).join ⟨name.bytes⟩) = true ↔
      files.isDirectory ((sourceDir layout).join ⟨name.bytes⟩) = true := by
  have hclimb := Path.climb_notMem_of_up_notMem (Path.up_notMem_join h.level name)
  have hlong' : Step.overlong ∉ ((sourceDir layout).join ⟨name.bytes⟩).route.steps := by
    rw [Path.route_join_name]
    intro hin
    rcases List.mem_append.mp hin with hfront | hlast
    · exact hlong hfront
    · exact absurd (List.mem_singleton.mp hlast) nofun
  have hlands : ((sourceDir layout).join ⟨name.bytes⟩).landing files.workingDirectory =
      name :: sourcePlace layout files := Path.landing_join _ name _
  have hlinks := h.unlinked_entry name
  have hlinks' := hchange.unlinked hlinks (h.above_entry name)
  rw [← hlands] at hlinks hlinks'
  rw [← hchange.workingDirectory] at hlinks'
  rw [FileSystem.isDirectory_iff_landing hclimb hlong' hlinks,
    FileSystem.isDirectory_iff_landing hclimb hlong' hlinks', hchange.workingDirectory, hlands,
    h.get?_entry hchange, FileSystem.route_congr hchange.pathLimit]

/-- The same test cases are found after any change to the wrappers. -/
theorem testCases (h : Apart layout files) (htests : testCases files (sourceDir layout) = .ok tests)
    (hchange : FileSystem.Confined (places layout files) files reached) :
    Generation.testCases reached (sourceDir layout) = .ok tests := by
  rcases (testCases_eq_ok_iff_sorted _ _ _).mp htests with ⟨place, hplace, hdir, hsorted, hmem⟩
  have hclimb := Path.climb_notMem_of_up_notMem h.level
  have hwalk := ((FileSystem.locate_eq_ok_iff _ _ _).mp hplace).2
  have hlong := Tree.overlong_notMem_of_walk (Tree.walk_steps_of_toEnd hwalk)
  have heq : place = sourcePlace layout files :=
    FileSystem.locate_eq_landing hclimb h.unlinked hplace
  rw [heq] at hdir hmem
  -- The directory is still there, and its path still leads to it.
  have hdir' := hchange.directory hdir h.above
  have hplace' : reached.locate (sourceDir layout) = .ok (sourcePlace layout files) :=
    FileSystem.locate_landing_of_locate hclimb hchange.workingDirectory hchange.pathLimit hplace
      hdir'
  refine (testCases_eq_ok_iff_sorted _ _ _).mpr ⟨_, hplace', hdir', hsorted, fun bytes => ?_⟩
  rw [hmem bytes]
  simp only [h.get?_entry hchange, h.isDirectory_entry hlong hchange]

/-- A layout whose test cases lie apart is not disturbed by its run. -/
theorem undisturbed (h : Apart layout files)
    (hlevel : Path.Component.up ∉ layout.outputDir.components)
    (hlinks : ∀ config ∈ configurations layout,
      files.tree.Unlinked (place config files).tail) :
    Undisturbed layout files :=
  ⟨hlevel, hlinks, fun _ _ htests hchange => h.testCases htests hchange⟩

end Apart

end Generation

end TestWrappers
