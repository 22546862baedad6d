import Mathlib.Data.List.Dedup
import TestWrappers.Proofs.Generation.Exact

/-!
# How Many Wrappers a Run Leaves

The number of files behind a run, and the number that it tells.

A run counts test cases, not files. Test cases whose names agree up to hyphens and
underscores have one file, which is written for each of them and counted each
time. So the two numbers agree exactly if no two test cases share a file, and
then there are as many files as there were directories with test cases.

## Main definitions

* `Generation.Separate`: No two test cases share a file.
* `Generation.wrapperNames`: The files of some test cases.
* `Generation.wrapperPlaces`: The files that a run leaves.

## Theorems

* `Generation.length_names_of_holds`: How many files a directory with wrappers
  holds.
* `Generation.counts_agree_iff`: When nothing is lost.
* `Generation.run_loses_wrapper`: A run in which something is.
-/

namespace TestWrappers

namespace Generation

variable {layout : Layout} {config : Configuration} {tests : List String} {here : Location}
  {files : FileSystem} {world after : World}

/-- No two of the test cases share a file. -/
def Separate (tests : List String) : Prop :=
  ∀ a ∈ tests, ∀ b ∈ tests, TestCase.fileName ⟨a⟩ = TestCase.fileName ⟨b⟩ → a = b

instance (tests : List String) : Decidable (Separate tests) :=
  inferInstanceAs (Decidable (∀ a ∈ tests, ∀ b ∈ tests, _ → a = b))

/-- The files that the wrappers of test cases go to, each one once. -/
def wrapperNames (tests : List String) : List String :=
  (tests.map fun test => TestCase.fileName ⟨test⟩).dedup

/-- The locations of all files in the directories for wrappers. -/
def wrapperPlaces (layout : Layout) (files after : FileSystem) : List Location :=
  (configurations layout).flatMap fun config =>
    (after.tree.names (place config files)).map fun file => file :: place config files

theorem length_wrapperNames_eq_iff (h : tests.Nodup) :
    (wrapperNames tests).length = tests.length ↔ Separate tests := by
  unfold wrapperNames Separate
  rw [← List.nodup_map_iff_inj_on h, ← List.dedup_eq_self,
    ← (List.dedup_sublist _).length_eq, List.length_map]

/-- A directory with wrappers holds as many files as its test cases have. -/
theorem length_names_of_holds (h : Holds config tests here files) :
    (files.tree.names here).length = (wrapperNames tests).length := by
  have hbytes : ((files.tree.names here).map Name.bytes).Nodup :=
    List.Pairwise.map _ (fun a b hne heq => hne (Name.eq_of_bytes_eq heq))
      (Tree.nodup_names _ _)
  have hnames : ((wrapperNames tests).map Utf8.encode).Nodup :=
    List.Pairwise.map _ (fun a b hne heq => hne (Utf8.encode_inj heq)) (List.nodup_dedup _)
  -- Neither list has anything twice, so it is enough that they have the same members.
  have hperm : ((files.tree.names here).map Name.bytes).Perm
      ((wrapperNames tests).map Utf8.encode) := by
    refine (List.perm_ext_iff_of_nodup hbytes hnames).mpr fun bytes => ?_
    simp only [wrapperNames, List.mem_map, List.mem_dedup, Tree.mem_names, h.isSome_iff]
    constructor
    · intro hin
      rcases hin with ⟨file, ⟨test, hmem, hfile⟩, rfl⟩
      exact ⟨_, ⟨test, hmem, rfl⟩, hfile⟩
    · intro hin
      rcases hin with ⟨_, ⟨test, hmem, rfl⟩, rfl⟩
      rcases h.filled test hmem with ⟨file, _, hfile, _⟩
      exact ⟨file, ⟨test, hmem, hfile.symm⟩, hfile⟩
  have hlength := hperm.length_eq
  rw [List.length_map, List.length_map] at hlength
  exact hlength

/-- A run that succeeds loses nothing exactly if no two test cases share a file,
    that is, if no two of their names agree up to hyphens and underscores: then each
    directory holds as many files as there were directories of test cases, and
    all of them together as many as the run tells. -/
theorem counts_agree_iff {summary : Summary} (hlayout : Undisturbed layout world.files)
    (h : (generate layout : Run Summary) world = (.ok summary, after)) :
    ∃ listed tests, world.files.list (sourceDir layout) = .ok listed ∧
      testCases world.files (sourceDir layout) = .ok tests ∧
      (Separate tests ↔ ∀ a ∈ tests, ∀ b ∈ tests,
        a.toList.map TestCase.classChar = b.toList.map TestCase.classChar → a = b) ∧
      (∀ config ∈ configurations layout, config.sourceDir = sourceDir layout ∧
        after.files.locate config.outputDir = .ok (place config world.files) ∧
        (∀ file ∈ after.files.tree.names (place config world.files), ∃ contents,
          after.files.tree.get? (file :: place config world.files) = some (.file contents)) ∧
        (after.files.tree.names (place config world.files)).length =
          (wrapperNames tests).length ∧
        ((after.files.tree.names (place config world.files)).length =
          (directories world.files (sourceDir layout) listed).length ↔ Separate tests)) ∧
      (summary.filesWritten = (wrapperPlaces layout world.files after.files).length ↔
        Separate tests) := by
  rcases holds_of_generate hlayout h with ⟨tests, htests, hsummary, hprogress⟩
  rcases length_testCases htests with ⟨listed, hlist, hcount⟩
  -- A strict order leaves no room for a name that comes twice.
  have hnodup : tests.Nodup := by
    refine (pairwise_testCases htests).imp fun hlt heq => ?_
    rw [heq] at hlt
    exact List.lt_irrefl _ hlt
  have hseparate := length_wrapperNames_eq_iff hnodup
  have hlength : ∀ config ∈ configurations layout,
      (after.files.tree.names (place config world.files)).length = (wrapperNames tests).length :=
    fun config hconfig => length_names_of_holds (hprogress.holds config hconfig)
  refine ⟨listed, tests, hlist, htests, ?_, fun config hconfig => ?_, ?_⟩
  · unfold Separate
    simp only [TestCase.fileName_eq_iff]
  · refine ⟨(Configuration.paths_of_mem hconfig).1, hprogress.located config hconfig,
      fun file hfile => ?_, hlength config hconfig, ?_⟩
    · rcases Option.isSome_iff_exists.mp (Tree.mem_names.mp hfile) with ⟨entry, hentry⟩
      rcases ((hprogress.holds config hconfig).entries file entry).mp hentry with
        ⟨_, text, _, _, rfl⟩
      exact ⟨_, hentry⟩
    · rw [hlength config hconfig, ← hcount]
      exact hseparate
  · -- Each of the five directories holds the same number of files.
    have htotal : (wrapperPlaces layout world.files after.files).length =
        5 * (wrapperNames tests).length := by
      simp only [wrapperPlaces, List.length_flatMap, List.length_map]
      rw [List.map_congr_left hlength, List.map_const', List.sum_replicate_nat,
        length_configurations]
    have hwritten : summary.filesWritten = 5 * tests.length := by
      rw [hsummary]
    rw [hwritten, htotal, ← hseparate]
    constructor
    · intro heq
      omega
    · intro heq
      rw [heq]

/-- Two test cases that do not share a file. -/
def separateFiles : FileSystem where
  tree :=
    [["t"], ["t", "dx"], ["t", "dx", "a-b"], ["t", "dx", "a-c"]].foldl
      (fun tree names => tree.put (sampleLocation names) .directory) Tree.empty
  workingDirectory := []
  pathLimit := none

theorem testCases_separateFiles :
    testCases separateFiles (sourceDir sampleLayout) = .ok ["a-b", "a-c"] :=
  testCases_of_perm rfl (by decide) (by decide)

theorem ready_separateFiles : Ready sampleLayout ["a-b", "a-c"] separateFiles :=
  ⟨rfl, by decide, by decide, by decide, by decide⟩

theorem undisturbed_separateFiles : Undisturbed sampleLayout separateFiles :=
  ready_separateFiles.undisturbed
    ⟨by decide, Tree.Unlinked.of_directory rfl, by decide, by decide, by decide⟩

/-- Two test cases that do not share a file leave two files in each directory, and as many
    altogether as the run tells. -/
theorem counts_agree_separate :
    ∃ summary after, (generate sampleLayout : Run Summary) ⟨separateFiles, []⟩ =
        (.ok summary, after) ∧
      (∀ config ∈ configurations sampleLayout,
        (after.files.tree.names (place config separateFiles)).length = 2) ∧
      summary.filesWritten = (wrapperPlaces sampleLayout separateFiles after.files).length := by
  rcases exists_generate [] undisturbed_separateFiles ready_separateFiles
    testCases_separateFiles with ⟨summary, after, hrun⟩
  rcases counts_agree_iff undisturbed_separateFiles hrun with
    ⟨_, tests, _, htests, _, hconfigs, hcounts⟩
  have heq : tests = ["a-b", "a-c"] := Except.ok.inj (htests.symm.trans testCases_separateFiles)
  subst heq
  have hseparate : Separate ["a-b", "a-c"] := by
    decide
  have hfiles : (wrapperNames ["a-b", "a-c"]).length = 2 := by
    decide
  refine ⟨summary, after, hrun, fun config hconfig => ?_, hcounts.mpr hseparate⟩
  rcases hconfigs config hconfig with ⟨_, _, _, hlength, _⟩
  exact hlength.trans hfiles

/-- In the sample two directories of test cases become one file, and the run tells
    of twice as many files as it leaves. -/
theorem run_loses_wrapper :
    ∃ summary after listed, (generate sampleLayout : Run Summary) ⟨sampleFiles, []⟩ =
        (.ok summary, after) ∧
      sampleFiles.list (sourceDir sampleLayout) = .ok listed ∧
      (directories sampleFiles (sourceDir sampleLayout) listed).length = 2 ∧
      (∀ config ∈ configurations sampleLayout,
        (after.files.tree.names (place config sampleFiles)).length = 1) ∧
      summary.filesWritten = 10 := by
  rcases exists_generate [] undisturbed_sampleFiles ready_sampleFiles testCases_sampleFiles with
    ⟨summary, after, hrun⟩
  rcases holds_of_generate undisturbed_sampleFiles hrun with ⟨tests, htests, hsummary, hprogress⟩
  have heq : tests = ["a-b", "a_b"] := Except.ok.inj (htests.symm.trans testCases_sampleFiles)
  subst heq
  have hshared : (wrapperNames ["a-b", "a_b"]).length = 1 := by
    decide
  refine ⟨summary, after, _, hrun, rfl, by decide, fun config hconfig => ?_, by rw [hsummary]; rfl⟩
  rw [length_names_of_holds (hprogress.holds config hconfig)]
  exact hshared

end Generation

end TestWrappers
