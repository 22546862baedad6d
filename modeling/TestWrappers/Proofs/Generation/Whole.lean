import TestWrappers.Proofs.Generation.Ending

/-!
# Whole Runs

What all configurations of a layout leave behind.

The configurations are gone through in order, and each of them empties and fills
one directory. Two things could go wrong. A configuration could disturb what an
earlier one has written, and it could find other test cases than the first one
did. Neither happens if the directories are where their paths say and if what is
done to them does not matter to the search for test cases (`Undisturbed`): all
directories are equally deep, so none is inside another one.

`Progress` is what holds between two configurations. Each configuration adds
itself to those that are complete and keeps the others complete, and a run of
them all is an induction over the list.

## Main definitions

* `Generation.places`: The locations of all directories for wrappers.
* `Generation.Undisturbed`: Writing wrappers does not disturb a run.
* `Generation.Progress`: Some configurations are complete.

## Theorems

* `Generation.progress_concat`: One more configuration.
* `Generation.progress_of_foldlM`: Any number of configurations.
* `Generation.holds_of_generate`: What a run leaves.
-/

namespace TestWrappers

namespace Generation

/-- The directory in which all configurations look for test cases. -/
def sourceDir (layout : Layout) : Path := layout.testDir.join (.ofString "dx")

/-- The location of the directory of a configuration. -/
def place (config : Configuration) (files : FileSystem) : Location :=
  config.outputDir.landing files.workingDirectory

theorem place_congr {config : Configuration} {files reached : FileSystem}
    (h : reached.workingDirectory = files.workingDirectory) :
    place config reached = place config files := by
  unfold place
  rw [h]

/-- The locations of the directories of all configurations. -/
def places (layout : Layout) (files : FileSystem) : List Location :=
  (configurations layout).map fun config => place config files

/-- Writing the wrappers of a layout does not disturb the run. -/
structure Undisturbed (layout : Layout) (files : FileSystem) : Prop where
  /-- The directory of the layout is named without climbing. -/
  level : Path.Component.up ∉ layout.outputDir.components
  /-- Nothing around the directories of the configurations is a link. -/
  unlinked : ∀ config ∈ configurations layout, files.tree.Unlinked (place config files).tail
  /-- The test cases that are found are found again whatever is done to these
      directories and to missing directories around them. -/
  stable : ∀ tests reached, testCases files (sourceDir layout) = .ok tests →
    FileSystem.Confined (places layout files) files reached →
    testCases reached (sourceDir layout) = .ok tests

variable {layout : Layout} {tests : List String} {files : FileSystem} {world after : World}

/-- Some configurations are complete: their directories hold the wrappers of the
    test cases. Nothing else has changed outside of the directories. -/
structure Progress (tests : List String) (complete : List Configuration)
    (files reached : FileSystem) : Prop where
  /-- Only the directories of the configurations have changed. -/
  confined : FileSystem.Confined (complete.map fun config => place config files) files reached
  /-- The directories are filled. -/
  holds : ∀ config ∈ complete, Holds config tests (place config files) reached
  /-- The paths lead to them. -/
  located : ∀ config ∈ complete, reached.locate config.outputDir = .ok (place config files)
  /-- None of their files is too long. -/
  fits : ∀ config ∈ complete, ∀ test ∈ tests, Fits config files test

/-- Nothing is complete before a run. -/
theorem Progress.start (tests : List String) (files : FileSystem) :
    Progress tests [] files files where
  confined := FileSystem.Confined.refl _ _
  holds := fun _ hin => absurd hin List.not_mem_nil
  located := fun _ hin => absurd hin List.not_mem_nil
  fits := fun _ hin => absurd hin List.not_mem_nil

/-- What has changed is among the directories of the layout. -/
theorem Progress.spread {complete : List Configuration} {reached : FileSystem}
    (h : Progress tests complete files reached)
    (hcomplete : ∀ config ∈ complete, config ∈ configurations layout) :
    FileSystem.Confined (places layout files) files reached := by
  refine h.confined.mono fun changed hmem => ?_
  rcases List.mem_map.mp hmem with ⟨config, hconfig, rfl⟩
  exact List.mem_map_of_mem (hcomplete config hconfig)

/-- Changes at locations that are neither around another one nor inside of it leave
    alone what is there. -/
theorem get?_of_confined {here : Location} {changes : List Location} {reached : FileSystem}
    (hchange : FileSystem.Confined changes files reached)
    (hin : ∀ there ∈ changes, here.isWithin there = false)
    (haround : ∀ there ∈ changes, there.isWithin here = false) {other : Location}
    (hother : other.isWithin here = true) : reached.tree.get? other = files.tree.get? other := by
  -- Nothing is inside of both, as one of them would be inside of the other.
  have hout : ∀ there ∈ changes, other.isWithin there = false := by
    refine fun there hthere => Bool.eq_false_iff.mpr fun hinside => ?_
    rcases List.suffix_or_suffix_of_suffix (Location.isWithin_iff.mp hother)
      (Location.isWithin_iff.mp hinside) with hsuffix | hsuffix
    · exact Bool.eq_false_iff.mp (haround there hthere) (Location.isWithin_iff.mpr hsuffix)
    · exact Bool.eq_false_iff.mp (hin there hthere) (Location.isWithin_iff.mpr hsuffix)
  rcases hchange.outside other hout with hsame | ⟨_, _, there, hthere, hmade⟩
  · exact hsame
  · -- A directory around the other location is not inside this one.
    exact absurd (Location.isWithin_trans hmade hother) (Bool.eq_false_iff.mp (haround there hthere))

/-- Configurations leave alone what is in the directory of another one. -/
theorem get?_of_confined_places {done : List Configuration} {other : Configuration}
    {reached further : FileSystem} (hdone : ∀ config ∈ done, config ∈ configurations layout)
    (hother : other ∈ configurations layout) (hnew : other ∉ done)
    (hchange : FileSystem.Confined (done.map fun config => place config files) reached further)
    {inner : Location} (hinner : inner.isWithin (place other files) = true) :
    further.tree.get? inner = reached.tree.get? inner := by
  refine get?_of_confined hchange (fun there hthere => ?_) (fun there hthere => ?_) hinner
  all_goals
    rcases List.mem_map.mp hthere with ⟨config, hconfig, rfl⟩
    refine Bool.eq_false_iff.mpr fun hinside => ?_
  · have heq := Configuration.eq_of_isWithin_landing hother (hdone config hconfig) hinside
    exact hnew (heq ▸ hconfig)
  · have heq := Configuration.eq_of_isWithin_landing (hdone config hconfig) hother hinside
    exact hnew (heq ▸ hconfig)

/-- The location of a configuration is not inside of those in front of it. -/
theorem isWithin_of_earlier {earlier later : List Configuration} {config : Configuration}
    (hconfigs : configurations layout = earlier ++ config :: later) :
    ∀ changed ∈ earlier.map fun other => place other files,
      (place config files).isWithin changed = false := by
  intro changed hchanged
  rcases List.mem_map.mp hchanged with ⟨other, hother, rfl⟩
  refine Bool.eq_false_iff.mpr fun hin => ?_
  have heq := Configuration.eq_of_isWithin_landing
    (Configuration.mem_of_eq_append hconfigs)
    (Configuration.mem_of_mem_front hconfigs hother) hin
  exact (Configuration.notMem_of_eq_append hconfigs).1 (heq ▸ hother)

theorem mem_places_of_earlier {earlier later : List Configuration}
    (hconfigs : configurations layout = earlier ++ later) {changed : Location}
    (h : changed ∈ earlier.map fun other => place other files) :
    changed ∈ places layout files := by
  unfold places
  rw [hconfigs, List.map_append]
  exact List.mem_append_left _ h

theorem Holds.congr {config : Configuration} {here : Location} {reached : FileSystem}
    (h : Holds config tests here files)
    (hsame : ∀ inner : Location, inner.isWithin here = true →
      reached.tree.get? inner = files.tree.get? inner) : Holds config tests here reached := by
  refine ⟨?_, h.filled, fun file entry => ?_⟩
  · rw [hsame here (Location.isWithin_refl here)]
    exact h.directory
  · rw [hsame _ (Location.isWithin_cons file (Location.isWithin_refl here))]
    exact h.entries file entry

/-- All directories for wrappers are equally deep, so what is around one of them is
    not inside of another one. -/
theorem isWithin_tail_place {config other : Configuration} (hconfig : config ∈ configurations layout)
    (hother : other ∈ configurations layout) :
    Location.isWithin (place config files).tail (place other files) = false := by
  have hlength : (place config files).length = (place other files).length := by
    unfold place
    rw [Configuration.length_landing_of_mem hconfig, Configuration.length_landing_of_mem hother]
  have hpos : 2 ≤ (place config files).length := by
    unfold place
    rw [Configuration.length_landing_of_mem hconfig]
    omega
  refine Bool.eq_false_iff.mpr fun hin => ?_
  have hle := Location.length_le_of_isWithin hin
  rw [List.length_tail] at hle
  omega

/-- Writing wrappers puts no link around a directory for wrappers. -/
theorem unlinked_place_of_confined {config : Configuration} {reached : FileSystem}
    (hconfig : config ∈ configurations layout)
    (hlinks : files.tree.Unlinked (place config files).tail)
    (hchange : FileSystem.Confined (places layout files) files reached) :
    reached.tree.Unlinked (place config files).tail := by
  refine hchange.unlinked hlinks fun changed hchanged => ?_
  rcases List.mem_map.mp hchanged with ⟨other, hother, rfl⟩
  exact isWithin_tail_place hconfig hother

/-- No link comes onto the way to a directory for wrappers. -/
theorem Undisturbed.unlinked_of_confined {config : Configuration} {reached : FileSystem}
    (h : Undisturbed layout files) (hconfig : config ∈ configurations layout)
    (hchange : FileSystem.Confined (places layout files) files reached) :
    reached.tree.Unlinked (place config files).tail :=
  unlinked_place_of_confined hconfig (h.unlinked config hconfig) hchange

/-- A configuration in its turn changes only its own directory, and the ones in front
    of it stay complete. -/
theorem progress_of_ending {complete : List Configuration} {config : Configuration}
    {result : Except Failure Nat} {reached further : FileSystem} (hlayout : Undisturbed layout files)
    (hcomplete : ∀ other ∈ complete, other ∈ configurations layout)
    (hconfig : config ∈ configurations layout) (hnew : config ∉ complete)
    (hprogress : Progress tests complete files reached) (h : Ending config reached result further) :
    FileSystem.Confined ((complete ++ [config]).map fun other => place other files) files further ∧
      ∀ other ∈ complete, Holds other tests (place other files) further ∧
        further.locate other.outputDir = .ok (place other files) := by
  have hcwd := hprogress.confined.workingDirectory
  have hlinks := hlayout.unlinked_of_confined hconfig (hprogress.spread hcomplete)
  have hchange := confined_of_ending hconfig hlayout.level (hcwd ▸ hlinks) h
  rw [hcwd] at hchange
  constructor
  · rw [List.map_append]
    exact (hprogress.confined.mono fun _ => List.mem_append_left _).trans
      (hchange.mono fun _ => List.mem_append_right _)
  · intro other hmem
    have hother := hcomplete other hmem
    have hsingle : ∀ changed ∈ [config], changed ∈ configurations layout :=
      fun _ hin => List.mem_singleton.mp hin ▸ hconfig
    have hapart : other ∉ [config] := fun hin => hnew (List.mem_singleton.mp hin ▸ hmem)
    have hholds := (hprogress.holds other hmem).congr fun inner hinner =>
      get?_of_confined_places hsingle hother hapart hchange hinner
    refine ⟨hholds, ?_⟩
    have hclimb := (Configuration.route_of_mem hother hlayout.level).1
    have hstill := FileSystem.locate_landing_of_locate hclimb hchange.workingDirectory
      hchange.pathLimit (hprogress.located other hmem) (hcwd ▸ hholds.directory)
    rw [hcwd] at hstill
    exact hstill

/-- One more configuration. -/
theorem progress_concat {complete : List Configuration} {config : Configuration} {count : Nat}
    (hlayout : Undisturbed layout files) (htests : testCases files (sourceDir layout) = .ok tests)
    (hcomplete : ∀ other ∈ complete, other ∈ configurations layout)
    (hconfig : config ∈ configurations layout) (hnew : config ∉ complete)
    (hprogress : Progress tests complete files world.files)
    (h : (generateConfiguration config : Run Nat) world = (.ok count, after)) :
    Progress tests (complete ++ [config]) files after.files ∧ count = tests.length := by
  have hcwd := hprogress.confined.workingDirectory
  have hspread := hprogress.spread hcomplete
  have hlinks := hlayout.unlinked_of_confined hconfig hspread
  rcases progress_of_ending hlayout hcomplete hconfig hnew hprogress
    (ending_of_run hconfig hlayout.level h) with ⟨hconfined, hothers⟩
  rcases holds_of_generateConfiguration hconfig hlayout.level (hcwd ▸ hlinks) h with
    ⟨found, hfound, hcount, hholds, hlocate, hfits⟩
  rw [hcwd] at hholds hlocate
  -- The test cases are the ones that were found at first.
  have hstable := hlayout.stable tests world.files htests hspread
  rw [(Configuration.paths_of_mem hconfig).1] at hfound
  have heq : found = tests := Except.ok.inj (hfound.symm.trans hstable)
  rw [heq] at hholds hcount hfits
  refine ⟨⟨hconfined, fun other hmem => ?_, fun other hmem => ?_, fun other hmem => ?_⟩, hcount⟩
  all_goals rcases List.mem_append.mp hmem with hin | hlast
  · exact (hothers other hin).1
  · rw [List.mem_singleton.mp hlast]
    exact hholds
  · exact (hothers other hin).2
  · rw [List.mem_singleton.mp hlast]
    exact hlocate
  · exact hprogress.fits other hin
  · rw [List.mem_singleton.mp hlast]
    exact fun test htest => (fits_congr hprogress.confined.pathLimit).mp (hfits test htest)

/-- Some of the configurations that are left. -/
theorem progress_of_foldlM {complete more left : List Configuration} {summary result : Summary}
    (hlayout : Undisturbed layout files) (htests : testCases files (sourceDir layout) = .ok tests)
    (hconfigs : configurations layout = complete ++ (more ++ left))
    (hprogress : Progress tests complete files world.files)
    (h : (more.foldlM generateNext summary : Run Summary) world = (.ok result, after)) :
    Progress tests (complete ++ more) files after.files ∧
      result = ⟨summary.configurations + more.length,
        summary.filesWritten + more.length * tests.length⟩ := by
  induction more generalizing complete summary world with
  | nil =>
    rcases Prod.mk.inj h with ⟨hresult, hafter⟩
    rw [List.append_nil, ← hafter, ← Except.ok.inj hresult]
    refine ⟨hprogress, ?_⟩
    rw [List.length_nil, Nat.zero_mul, Nat.add_zero, Nat.add_zero]
  | cons config more ih =>
    rcases (Run.run_foldlM_cons_eq_ok_iff _ _ _ _ _ _ _).mp h with ⟨next, reached, hnext, hrest⟩
    rcases (run_generateNext_eq_ok_iff _ _ _ _ _).mp hnext with ⟨count, hconfig, rfl⟩
    have hnew := (Configuration.notMem_of_eq_append hconfigs).1
    have hmem : ∀ other ∈ complete, other ∈ configurations layout :=
      fun _ => Configuration.mem_of_mem_front hconfigs
    have hmem' := Configuration.mem_of_eq_append hconfigs
    rcases progress_concat hlayout htests hmem hmem' hnew hprogress hconfig with
      ⟨hreached, rfl⟩
    -- The configuration moves from those that are left to those that are complete.
    rw [List.cons_append, List.append_cons] at hconfigs
    rcases ih hconfigs hreached hrest with ⟨hafter, hresult⟩
    rw [List.append_cons]
    refine ⟨hafter, ?_⟩
    rw [hresult, List.length_cons, Nat.succ_mul]
    simp only [Summary.mk.injEq]
    omega

/-- A configuration that succeeds has found test cases. -/
theorem exists_testCases_of_foldlM {config : Configuration} {more : List Configuration}
    {summary result : Summary} (hconfig : config ∈ configurations layout)
    (h : ((config :: more).foldlM generateNext summary : Run Summary) world = (.ok result, after)) :
    ∃ tests, testCases world.files (sourceDir layout) = .ok tests := by
  rcases (Run.run_foldlM_cons_eq_ok_iff _ _ _ _ _ _ _).mp h with ⟨next, reached, hnext, _⟩
  rcases (run_generateNext_eq_ok_iff _ _ _ _ _).mp hnext with ⟨count, hfirst, _⟩
  rcases (run_generateConfiguration_eq_ok_iff _ _ _ _).mp hfirst with ⟨tests, _, htests, _⟩
  rw [(Configuration.paths_of_mem hconfig).1] at htests
  exact ⟨tests, htests⟩

/-- What a run leaves that succeeds. The directory of each configuration holds the
    wrappers of the test cases that were found at first, and nothing has changed
    outside of these directories. -/
theorem holds_of_generate {summary : Summary} (hlayout : Undisturbed layout world.files)
    (h : (generate layout : Run Summary) world = (.ok summary, after)) :
    ∃ tests, testCases world.files (sourceDir layout) = .ok tests ∧
      summary = ⟨5, 5 * tests.length⟩ ∧
      Progress tests (configurations layout) world.files after.files := by
  have hfirst : ∃ config left, configurations layout = config :: left := ⟨_, _, rfl⟩
  unfold generate at h
  -- The first configuration finds the test cases that all others find again.
  rcases hfirst with ⟨config, left, hconfigs⟩
  have hmem : config ∈ configurations layout := hconfigs ▸ List.mem_cons_self
  rcases exists_testCases_of_foldlM hmem (hconfigs ▸ h) with ⟨tests, htests⟩
  have hstart := Progress.start tests world.files
  rcases progress_of_foldlM hlayout htests (List.append_nil _).symm hstart h with
    ⟨hprogress, hsummary⟩
  rw [length_configurations, Nat.zero_add, Nat.zero_add] at hsummary
  exact ⟨tests, htests, hsummary, hprogress⟩

end Generation

end TestWrappers
