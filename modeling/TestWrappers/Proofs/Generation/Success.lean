import TestWrappers.Proofs.FileSystem.Remaking
import TestWrappers.Proofs.FileSystem.Sparing
import TestWrappers.Proofs.Generation.Apart

/-!
# Runs That Succeed

Conditions under which a run gets to its end.

A run does four things that could fail: it looks for test cases, it resets
directories, it fills in wrappers and it writes them. All its endings are known,
so it succeeds if the others are excluded: the test cases have to be found, each
directory has to allow a reset when its turn comes, and no file may be too long.

The directories of later configurations stay as they were while earlier ones are
filled, because what changes around them are missing directories that are made.
So it is enough that nothing is in the way at first, and that every name of a
test case leaves room for the twelve bytes that the name of its file adds
(`Ready`).

## Main definitions

* `Generation.Ready`: Nothing is in the way of the wrappers of a layout.

## Theorems

* `Generation.exists_generateConfiguration`: A configuration can be completed.
* `Generation.exists_generate_of_resets`: A run succeeds if each directory can be
  reset in its turn.
* `Generation.exists_generate`: A run succeeds if nothing is in the way.
-/

namespace TestWrappers

namespace Generation

variable {config : Configuration} {layout : Layout} {tests : List String} {files : FileSystem}
  {world : World}

/-- Nothing is in the way of the wrappers of test cases. -/
structure Ready (layout : Layout) (tests : List String) (files : FileSystem) : Prop where
  /-- Paths may be as long as they want. -/
  unlimited : files.pathLimit = none
  /-- The directory of the layout is a matter of names. -/
  plain : layout.outputDir.IsPlain
  /-- Its path starts in a directory. -/
  start : files.tree.get? (layout.outputDir.route.start files.workingDirectory) = some .directory
  /-- Whatever is at the directories of the configurations, or around them, is a
      directory itself. -/
  isOpen : ∀ config ∈ configurations layout, files.tree.Open (place config files)
  /-- The names of the files have room. -/
  short : ∀ test ∈ tests, (Utf8.encode test).length + 12 ≤ Name.maxLength

/-- A layout that is ready and has its test cases apart is not disturbed by its
    run. -/
theorem Ready.undisturbed (h : Ready layout tests files) (hapart : Apart layout files) :
    Undisturbed layout files :=
  hapart.undisturbed h.plain.up_notMem fun config hconfig =>
    (h.isOpen config hconfig).unlinked.outer (Location.isWithin_iff.mpr (List.tail_suffix _))

theorem plain_of_mem (h : config ∈ configurations layout)
    (hplain : layout.outputDir.IsPlain) : config.outputDir.IsPlain := by
  rcases Configuration.outputDir_of_mem h with ⟨outer, inner, _, hpath⟩
  rw [hpath]
  exact (hplain.join outer).join inner

/-- A configuration can be completed if its test cases are found, its directory can
    be reset and none of its files is too long. -/
theorem exists_generateConfiguration (hconfig : config ∈ configurations layout)
    (hup : Path.Component.up ∉ layout.outputDir.components)
    (htests : testCases world.files config.sourceDir = .ok tests)
    (hreset : ∃ base, resetFiles world.files config.outputDir = (.ok (), base))
    (hfits : ∀ test ∈ tests, Fits config world.files test) :
    ∃ after, (generateConfiguration config : Run Nat) world = (.ok tests.length, after) := by
  rcases hreset with ⟨base, hreset⟩
  have hlimit := FileSystem.pathLimit_resetFiles world.files config.outputDir
  rw [hreset] at hlimit
  rcases world with ⟨files, events⟩
  rcases hrun : (generateConfiguration config : Run Nat) ⟨files, events⟩ with ⟨result, left, told⟩
  -- Of all endings only the last one is possible.
  cases ending_of_run hconfig hup hrun with
  | unfound hfound =>
    rw [htests] at hfound
    exact absurd hfound nofun
  | uncleared _ hfailed =>
    rw [hreset] at hfailed
    exact absurd (Prod.mk.inj hfailed).1 nofun
  | unfit hfound hfailed _ _ _ hlong =>
    rw [hreset] at hfailed
    rcases Prod.mk.inj hfailed with ⟨_, rfl⟩
    rw [Except.ok.inj (htests.symm.trans hfound)] at hfits
    have hfit := hfits _ (List.mem_append_right _ List.mem_cons_self)
    exact absurd ((fits_congr hlimit).mpr hfit) hlong
  | complete hfound _ _ _ _ =>
    rw [Except.ok.inj (htests.symm.trans hfound)]
    exact ⟨⟨left, told⟩, rfl⟩

/-- Some of the configurations that are left can be completed, if each of their
    directories can be reset in its turn and none of their files is too long. -/
theorem exists_foldlM {complete more left : List Configuration} {summary : Summary}
    (hlayout : Undisturbed layout files) (htests : testCases files (sourceDir layout) = .ok tests)
    (hreset : ∀ earlier config later reached, config ∈ more →
      configurations layout = earlier ++ config :: later →
      FileSystem.Confined (earlier.map fun other => place other files) files reached →
      ∃ base, resetFiles reached config.outputDir = (.ok (), base))
    (hfits : ∀ config ∈ more, ∀ test ∈ tests, Fits config files test)
    (hconfigs : configurations layout = complete ++ (more ++ left))
    (hprogress : Progress tests complete files world.files) :
    ∃ result after, (more.foldlM generateNext summary : Run Summary) world =
      (.ok result, after) := by
  -- What is complete grows by one configuration.
  induction more generalizing complete summary world with
  | nil => exact ⟨summary, world, rfl⟩
  | cons config more ih =>
    have hconfig := Configuration.mem_of_eq_append hconfigs
    have hcomplete : ∀ other ∈ complete, other ∈ configurations layout :=
      fun _ => Configuration.mem_of_mem_front hconfigs
    have hfound : testCases world.files config.sourceDir = .ok tests := by
      rw [(Configuration.paths_of_mem hconfig).1]
      exact hlayout.stable tests world.files htests (hprogress.spread hcomplete)
    rcases exists_generateConfiguration hconfig hlayout.level hfound
      (hreset complete config _ world.files List.mem_cons_self hconfigs hprogress.confined)
      (fun test hmem => (fits_congr hprogress.confined.pathLimit).mpr
        (hfits config List.mem_cons_self test hmem)) with ⟨reached, hrun⟩
    have hnew := (Configuration.notMem_of_eq_append hconfigs).1
    rcases progress_concat hlayout htests hcomplete hconfig hnew hprogress hrun with ⟨hreached, _⟩
    rw [List.cons_append, List.append_cons] at hconfigs
    rcases ih (fun earlier other later further hin =>
        hreset earlier other later further (List.mem_cons_of_mem config hin))
      (fun other hin => hfits other (List.mem_cons_of_mem config hin)) hconfigs hreached with
      ⟨result, after, hleft⟩
    exact ⟨result, after, (Run.run_foldlM_cons_eq_ok_iff _ _ _ _ _ _ _).mpr
      ⟨_, reached, (run_generateNext_eq_ok_iff _ _ _ _ _).mpr ⟨tests.length, hrun, rfl⟩, hleft⟩⟩

/-- A run succeeds if its test cases are found, each directory can be reset behind
    the configurations in front of it, and no file is too long. -/
theorem exists_generate_of_resets (events : List Event) (hlayout : Undisturbed layout files)
    (htests : testCases files (sourceDir layout) = .ok tests)
    (hreset : ∀ earlier config later reached, configurations layout = earlier ++ config :: later →
      FileSystem.Confined (earlier.map fun other => place other files) files reached →
      ∃ base, resetFiles reached config.outputDir = (.ok (), base))
    (hfits : ∀ config ∈ configurations layout, ∀ test ∈ tests, Fits config files test) :
    ∃ summary after, (generate layout : Run Summary) ⟨files, events⟩ = (.ok summary, after) :=
  exists_foldlM hlayout htests
    (fun earlier config later reached _ => hreset earlier config later reached) hfits
    (List.append_nil _).symm (Progress.start tests files)

/-- The path of the layout starts above all directories that a run changes. -/
theorem start_of_confined {reached : FileSystem}
    (hstart : files.tree.get? (layout.outputDir.route.start files.workingDirectory) =
      some .directory)
    (hchange : FileSystem.Confined (places layout files) files reached) :
    reached.tree.get? (layout.outputDir.route.start reached.workingDirectory) =
      some .directory := by
  rw [hchange.workingDirectory]
  refine hchange.directory hstart fun changed hchanged => ?_
  rcases List.mem_map.mp hchanged with ⟨config, hconfig, rfl⟩
  -- The path starts around its directory, which is two levels above the wrappers.
  have habove : (layout.outputDir.landing files.workingDirectory).isWithin
      (layout.outputDir.route.start files.workingDirectory) = true :=
    Location.isWithin_along _ _
  have hlength : (place config files).length =
      2 + (layout.outputDir.landing files.workingDirectory).length :=
    Configuration.length_landing_of_mem hconfig files.workingDirectory
  refine Bool.eq_false_iff.mpr fun hin => ?_
  have hle := Location.length_le_of_isWithin hin
  have hle' := Location.length_le_of_isWithin habove
  omega

/-- The directory of a configuration can be reset, or made, if nothing but
    directories is at its place and around it. -/
theorem reset_of_open (hconfig : config ∈ configurations layout) (hlimit : files.pathLimit = none)
    (hplain : layout.outputDir.IsPlain)
    (hstart : files.tree.get? (layout.outputDir.route.start files.workingDirectory) =
      some .directory)
    (hopen : files.tree.Open (place config files)) :
    ∃ base, resetFiles files config.outputDir = (.ok (), base) := by
  unfold place at hopen
  rcases Configuration.outputDir_of_mem hconfig with ⟨outer, inner, _, hpath⟩
  rw [hpath] at hopen ⊢
  refine FileSystem.resetFiles_of_open hlimit (hplain.join outer) inner ?_ hopen
  rw [Path.route_join_name]
  exact hstart

/-- The directory of a configuration can be reset behind those in front of it, if
    nothing but directories is at its place and around it at first. -/
theorem reset_behind {reached : FileSystem} {earlier later : List Configuration}
    (hlimit : files.pathLimit = none) (hplain : layout.outputDir.IsPlain)
    (hstart : files.tree.get? (layout.outputDir.route.start files.workingDirectory) =
      some .directory)
    (hconfigs : configurations layout = earlier ++ config :: later)
    (hopen : files.tree.Open (place config files))
    (hchange : FileSystem.Confined (earlier.map fun other => place other files) files reached) :
    ∃ base, resetFiles reached config.outputDir = (.ok (), base) := by
  have hconfig := Configuration.mem_of_eq_append hconfigs
  have hspread := hchange.mono fun _ => mem_places_of_earlier hconfigs
  have hstill := hchange.isOpen hopen (isWithin_of_earlier hconfigs)
  rw [← place_congr hchange.workingDirectory] at hstill
  exact reset_of_open hconfig (hchange.pathLimit.trans hlimit) hplain
    (start_of_confined hstart hspread) hstill

/-- A run succeeds if nothing is in the way of its wrappers. -/
theorem exists_generate (events : List Event) (hlayout : Undisturbed layout files)
    (hready : Ready layout tests files)
    (htests : testCases files (sourceDir layout) = .ok tests) :
    ∃ summary after, (generate layout : Run Summary) ⟨files, events⟩ = (.ok summary, after) :=
  exists_generate_of_resets events hlayout htests
    (fun _ config _ _ hconfigs => reset_behind hready.unlimited hready.plain hready.start hconfigs
      (hready.isOpen config (Configuration.mem_of_eq_append hconfigs)))
    fun _ _ test hmem => (fits_iff hready.unlimited).mpr (hready.short test hmem)

end Generation

end TestWrappers
