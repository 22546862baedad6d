import TestWrappers.Proofs.Generation.Exact

/-!
# Runs One After the Other

What a run owes to what was there before, which is nothing but the names of the
test cases.

A directory that holds the wrappers of test cases is determined by them, down to
the last byte, and each of its files by those that it belongs to
(`Holds.get?_eq`). So two runs that find the same names leave the
same directories, whatever was in these directories before. That the second of
two runs in a row finds the same names, and that it succeeds, has to be shown: the
first run has changed nothing that the search looks at, and what it has left in
place of each directory is a directory, which can always be reset.

## Main definitions

* `Generation.bareFiles`: The test cases of the sample without anything else.

## Theorems

* `Generation.Holds.get?_eq`: Test cases determine their directory.
* `Generation.Undisturbed.of_confined`: What does not disturb a run does not
  disturb the next one either.
* `Generation.generate_again`: A run repeated, and a run with other files.
-/

namespace TestWrappers

namespace Generation

variable {config : Configuration} {layout : Layout} {tests : List String}
  {here there : Location} {files reached : FileSystem} {world after : World} {summary : Summary}

/-- There are no directories in a directory with wrappers, at any depth. -/
theorem Holds.not_directory (h : Holds config tests here files) (name : Name) (inner : Location) :
    files.tree.get? (name :: inner ++ here) ≠ some .directory := by
  induction inner generalizing name with
  | nil =>
    intro hdir
    rcases (h.entries name .directory).mp hdir with ⟨_, _, _, _, heq⟩
    cases heq
  | cons outer inner ih =>
    rw [List.cons_append, Tree.get?_cons_eq_none (ih outer) name]
    exact nofun

/-- Two directories with wrappers are the same in every place and every byte, but for
    files that belong to different test cases. -/
theorem Holds.get?_eq {tests' : List String} (h : Holds config tests here files)
    (h' : Holds config tests' there reached) (inner : Location)
    (hlast : ∀ file, inner = [file] → lastNamed tests' file = lastNamed tests file) :
    reached.tree.get? (inner ++ there) = files.tree.get? (inner ++ here) := by
  match inner with
  | [] => exact h'.directory.trans h.directory.symm
  | [file] =>
    have hentries := h'.entries file
    rw [hlast file rfl] at hentries
    exact Option.ext fun entry => (hentries entry).trans (h.entries file entry).symm
  | file :: outer :: inner =>
    -- Nothing is behind a file.
    exact (Tree.get?_cons_eq_none (h'.not_directory outer inner) file).trans
      (Tree.get?_cons_eq_none (h.not_directory outer inner) file).symm

/-- A run that is not disturbed leaves files in which the next one is not disturbed
    and finds the same test cases. -/
theorem Undisturbed.of_confined (h : Undisturbed layout files)
    (htests : testCases files (sourceDir layout) = .ok tests)
    (hchange : FileSystem.Confined (places layout files) files reached) :
    Undisturbed layout reached ∧ testCases reached (sourceDir layout) = .ok tests := by
  have hplaces : places layout reached = places layout files :=
    List.map_congr_left fun config _ => place_congr hchange.workingDirectory
  have hfound := h.stable tests reached htests hchange
  refine ⟨⟨h.level, fun config hconfig => ?_, fun others further hothers hnext => ?_⟩, hfound⟩
  · rw [place_congr hchange.workingDirectory]
    exact h.unlinked_of_confined hconfig hchange
  · rw [hfound, Except.ok.injEq] at hothers
    subst hothers
    rw [hplaces] at hnext
    exact h.stable tests further htests (hchange.trans hnext)

/-- Where all configurations are complete, each directory can be reset again behind
    those in front of it. -/
theorem reset_of_progress (hlayout : Undisturbed layout files)
    (hprogress : Progress tests (configurations layout) files reached)
    {earlier later : List Configuration} {further : FileSystem}
    (hconfigs : configurations layout = earlier ++ config :: later)
    (hchange : FileSystem.Confined (earlier.map fun other => place other reached) reached further) :
    ∃ base, resetFiles further config.outputDir = (.ok (), base) := by
  have hconfig := Configuration.mem_of_eq_append hconfigs
  rcases Configuration.route_of_mem hconfig hlayout.level with ⟨hclimb, ⟨name, hlast⟩, hslash⟩
  -- The path leads to the directory, so it can be looked up and no name in it is too long.
  rcases (FileSystem.locate_eq_ok_iff _ _ _).mp (hprogress.located config hconfig) with
    ⟨hroute, hwalk⟩
  have hlong := Tree.overlong_notMem_of_walk (Tree.walk_steps_of_toEnd hwalk)
  have hdir : reached.tree.get? (place config reached) = some .directory := by
    rw [place_congr hprogress.confined.workingDirectory]
    exact (hprogress.holds config hconfig).directory
  have hstill := hchange.directory hdir (isWithin_of_earlier hconfigs)
  rw [← place_congr hchange.workingDirectory] at hstill
  exact FileSystem.resetFiles_of_directory
    ((FileSystem.route_congr hchange.pathLimit _).trans hroute) hlast hslash hclimb hlong hstill

/-- Where all configurations are complete, completing them once more changes
    nothing. -/
theorem get?_of_progress {again : FileSystem}
    (hprogress : Progress tests (configurations layout) files reached)
    (hagain : Progress tests (configurations layout) reached again) (other : Location) :
    again.tree.get? other = reached.tree.get? other := by
  have hholds : ∀ config ∈ configurations layout,
      Holds config tests (place config reached) reached := by
    intro config hconfig
    rw [place_congr hprogress.confined.workingDirectory]
    exact hprogress.holds config hconfig
  by_cases hin : ∃ config ∈ configurations layout, other.isWithin (place config reached) = true
  · rcases hin with ⟨config, hconfig, hin⟩
    rcases Location.isWithin_iff.mp hin with ⟨inner, rfl⟩
    exact (hholds config hconfig).get?_eq (hagain.holds config hconfig) inner fun _ _ => rfl
  · have hout : ∀ changed ∈ (configurations layout).map fun config => place config reached,
        other.isWithin changed = false := by
      intro changed hchanged
      rcases List.mem_map.mp hchanged with ⟨config, hconfig, rfl⟩
      exact Bool.eq_false_iff.mpr fun hwithin => hin ⟨config, hconfig, hwithin⟩
    rcases hagain.confined.outside other hout with hsame | ⟨hnone, _, changed, hchanged, haround⟩
    · exact hsame
    · -- Everything around the directories is already there.
      rcases List.mem_map.mp hchanged with ⟨config, hconfig, rfl⟩
      rw [Tree.get?_of_isWithin (hholds config hconfig).directory haround] at hnone
      exact absurd hnone nofun

/-- A run that has succeeded succeeds again, with the same summary, and leaves
    everything as it is. Any other run that finds the same test cases, in whatever
    files, leaves the same directories, in every place and every byte. -/
theorem generate_again (hlayout : Undisturbed layout world.files)
    (h : (generate layout : Run Summary) world = (.ok summary, after)) :
    (∀ events, ∃ again,
      (generate layout : Run Summary) ⟨after.files, events⟩ = (.ok summary, again) ∧
      again.files.workingDirectory = after.files.workingDirectory ∧
      again.files.pathLimit = after.files.pathLimit ∧
      ∀ place, again.files.tree.get? place = after.files.tree.get? place) ∧
    ∀ (world' after' : World) summary' tests tests', Undisturbed layout world'.files →
      (generate layout : Run Summary) world' = (.ok summary', after') →
      testCases world.files (sourceDir layout) = .ok tests →
      testCases world'.files (sourceDir layout) = .ok tests' →
      (∀ test, test ∈ tests ↔ test ∈ tests') →
      summary' = summary ∧ ∀ config ∈ configurations layout, ∃ here here',
        after.files.locate config.outputDir = .ok here ∧
        after'.files.locate config.outputDir = .ok here' ∧
        after.files.tree.get? here = some .directory ∧
        ∀ inner : Location,
          after'.files.tree.get? (inner ++ here') = after.files.tree.get? (inner ++ here) := by
  rcases holds_of_generate hlayout h with ⟨tests, htests, hsummary, hprogress⟩
  constructor
  · intro events
    rcases hlayout.of_confined htests hprogress.confined with ⟨hlayout', htests'⟩
    have hfits : ∀ config ∈ configurations layout, ∀ test ∈ tests, Fits config after.files test :=
      fun config hconfig test hmem =>
        (fits_congr hprogress.confined.pathLimit).mpr (hprogress.fits config hconfig test hmem)
    rcases exists_generate_of_resets events hlayout' htests'
      (fun _ _ _ _ => reset_of_progress hlayout hprogress) hfits with ⟨summary', again, hrun⟩
    have hstart : Undisturbed layout (World.mk after.files events).files := hlayout'
    rcases holds_of_generate hstart hrun with ⟨others, hothers, hsummary', hagain⟩
    have heq : others = tests := Except.ok.inj (hothers.symm.trans htests')
    subst heq
    rw [hsummary', ← hsummary] at hrun
    exact ⟨again, hrun, hagain.confined.workingDirectory, hagain.confined.pathLimit,
      get?_of_progress hprogress hagain⟩
  · intro world' after' summary' found found' hlayout' hrun hfound hfound' hmem
    rcases holds_of_generate hlayout' hrun with ⟨others, hothers, hsummary', hprogress'⟩
    -- The names stand in the same order in both lists, so the lists are the same.
    have heq := testCases_eq_of_mem_iff hfound hfound' hmem
    rw [hothers, Except.ok.injEq] at hfound'
    rw [htests, Except.ok.injEq] at hfound
    rw [← hfound', ← hfound] at heq
    subst heq
    refine ⟨hsummary'.trans hsummary.symm, fun config hconfig => ⟨_, _,
      hprogress.located config hconfig, hprogress'.located config hconfig,
      (hprogress.holds config hconfig).directory, ?_⟩⟩
    exact fun inner => (hprogress.holds config hconfig).get?_eq (hprogress'.holds config hconfig)
      inner fun _ _ => rfl

/-- The test cases of the sample, one of them with a file in it, and nothing else. -/
def bareFiles : FileSystem where
  tree :=
    ([["t"], ["t", "dx"], ["t", "dx", "a_b"], ["t", "dx", "a-b"]].foldl
      (fun tree names => tree.put (sampleLocation names) .directory) Tree.empty).put
        (sampleLocation ["t", "dx", "a-b", "expected.txt"]) (.file [])
  workingDirectory := []
  pathLimit := none

theorem testCases_bareFiles : testCases bareFiles (sourceDir sampleLayout) = .ok ["a-b", "a_b"] :=
  testCases_of_perm rfl (by decide) (by decide)

theorem ready_bareFiles : Ready sampleLayout ["a-b", "a_b"] bareFiles :=
  ⟨rfl, by decide, by decide, by decide, by decide⟩

theorem undisturbed_bareFiles : Undisturbed sampleLayout bareFiles :=
  ready_bareFiles.undisturbed
    ⟨by decide, Tree.Unlinked.of_directory rfl, by decide, by decide, by decide⟩

/-- The sample can be run twice, and runs with and without an old wrapper end with the
    same directories. -/
theorem generate_again_sample :
    ∃ summary after after', (generate sampleLayout : Run Summary) ⟨sampleFiles, []⟩ =
        (.ok summary, after) ∧
      (∃ again, (generate sampleLayout : Run Summary) ⟨after.files, []⟩ = (.ok summary, again) ∧
        ∀ place, again.files.tree.get? place = after.files.tree.get? place) ∧
      (generate sampleLayout : Run Summary) ⟨bareFiles, []⟩ = (.ok summary, after') ∧
      ∀ config ∈ configurations sampleLayout, ∃ here here',
        after.files.locate config.outputDir = .ok here ∧
        after'.files.locate config.outputDir = .ok here' ∧
        ∀ inner : Location,
          after'.files.tree.get? (inner ++ here') = after.files.tree.get? (inner ++ here) := by
  rcases exists_generate [] undisturbed_sampleFiles ready_sampleFiles testCases_sampleFiles with
    ⟨summary, after, hrun⟩
  rcases exists_generate [] undisturbed_bareFiles ready_bareFiles testCases_bareFiles with
    ⟨summary', after', hrun'⟩
  have hstart : Undisturbed sampleLayout (World.mk sampleFiles []).files := undisturbed_sampleFiles
  rcases generate_again hstart hrun with ⟨hagain, hother⟩
  rcases hagain [] with ⟨again, hsecond, _, _, hsame⟩
  rcases hother ⟨bareFiles, []⟩ after' summary' _ _ undisturbed_bareFiles hrun'
    testCases_sampleFiles testCases_bareFiles (fun _ => Iff.rfl) with ⟨rfl, hdirs⟩
  refine ⟨_, after, after', hrun, ⟨again, hsecond, hsame⟩, hrun', fun config hconfig => ?_⟩
  rcases hdirs config hconfig with ⟨here, here', hlocate, hlocate', _, hinner⟩
  exact ⟨here, here', hlocate, hlocate', hinner⟩

end Generation

end TestWrappers
