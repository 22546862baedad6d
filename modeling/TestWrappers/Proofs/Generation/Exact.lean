import TestWrappers.Proofs.Generation.Success

/-!
# What a Run Leaves

The whole effect of a run that succeeds.

Test cases are found in the strict order of their bytes. So the last test case
that a file belongs to is the greatest one, and what a directory holds behind a
run is a matter of which names were found, without any order in it.

## Main definitions

* `Generation.sampleFiles`: Two test cases with one file, and an old wrapper.

## Theorems

* `Generation.lastNamed_eq_some_iff_greatest`: The test case that a file ends up
  with is the greatest one.
* `Generation.generate_leaves`: What a run leaves.
-/

namespace TestWrappers

namespace Generation

variable {layout : Layout} {tests : List String} {world after : World}

/-- Of test cases in their order, the last one with a file is the greatest one. -/
theorem lastNamed_eq_some_iff_greatest
    (hsorted : tests.Pairwise fun a b => Utf8.encode a < Utf8.encode b) (file : Name)
    (test : String) :
    lastNamed tests file = some test ↔
      test ∈ tests ∧ Utf8.encode (TestCase.fileName ⟨test⟩) = file.bytes ∧
        ∀ other ∈ tests, Utf8.encode (TestCase.fileName ⟨other⟩) = file.bytes →
          Utf8.encode other ≤ Utf8.encode test := by
  rw [lastNamed_eq_some_iff]
  constructor
  · intro h
    rcases h with ⟨earlier, later, rfl, hfile, hlater⟩
    refine ⟨List.mem_append_right _ List.mem_cons_self, hfile, fun other hmem hother => ?_⟩
    rcases List.mem_append.mp hmem with hbefore | hbehind
    · -- What comes before is less.
      have hlt := (List.pairwise_append.mp hsorted).2.2 other hbefore test List.mem_cons_self
      exact List.le_of_lt hlt
    · rcases List.mem_cons.mp hbehind with rfl | hin
      · exact List.le_refl _
      · exact absurd hother (hlater other hin)
  · intro h
    rcases h with ⟨hmem, hfile, hgreatest⟩
    rcases List.append_of_mem hmem with ⟨earlier, later, rfl⟩
    refine ⟨earlier, later, rfl, hfile, fun other hin hother => ?_⟩
    -- What comes behind is greater, so it cannot have the same file.
    have hlt := (List.pairwise_cons.mp (List.pairwise_append.mp hsorted).2.1).1 other hin
    have hle := hgreatest other (List.mem_append_right _ (List.mem_cons_of_mem test hin)) hother
    exact absurd hlt (List.not_lt.mpr hle)

/-- What a run leaves that succeeds. All configurations are complete. The directory
    of each one holds the wrappers of the test cases that were found, and nothing
    else; where several test cases share a file, it holds the wrapper of the
    greatest one. Elsewhere nothing has changed, but for missing directories that
    were made around these directories. -/
theorem generate_leaves {summary : Summary} (hlayout : Undisturbed layout world.files)
    (h : (generate layout : Run Summary) world = (.ok summary, after)) :
    ∃ tests, testCases world.files (sourceDir layout) = .ok tests ∧
      (tests.Pairwise fun a b => Utf8.encode a < Utf8.encode b) ∧
      summary = ⟨5, 5 * tests.length⟩ ∧
      ((configurations layout).map Configuration.outputDir =
        [("dx", "r8"), ("dx", "d8"), ("none", "r8"), ("none", "d8"), ("none", "r8cf")].map
          fun pair => (layout.outputDir.join (.ofString pair.1)).join (.ofString pair.2)) ∧
      (∀ config ∈ configurations layout,
        after.files.locate config.outputDir = .ok (place config world.files) ∧
        after.files.tree.get? (place config world.files) = some .directory ∧
        (∀ test ∈ tests, ∃ (file : Name) (contents : List UInt8),
          file.bytes = Utf8.encode (TestCase.fileName ⟨test⟩) ∧
          after.files.tree.get? (file :: place config world.files) = some (.file contents)) ∧
        ∀ file entry, after.files.tree.get? (file :: place config world.files) = some entry ↔
          ∃ test ∈ tests, Utf8.encode (TestCase.fileName ⟨test⟩) = file.bytes ∧
            (∀ other ∈ tests, Utf8.encode (TestCase.fileName ⟨other⟩) = file.bytes →
              Utf8.encode other ≤ Utf8.encode test) ∧
            ∃ text, Wrapper.render ⟨test⟩ config = .ok text ∧
              entry = .file (Utf8.encode text)) ∧
      FileSystem.Confined (places layout world.files) world.files after.files := by
  rcases holds_of_generate hlayout h with ⟨tests, htests, hsummary, hprogress⟩
  have hsorted := pairwise_testCases htests
  refine ⟨tests, htests, hsorted, hsummary, rfl, fun config hconfig => ?_, hprogress.confined⟩
  have hholds := hprogress.holds config hconfig
  refine ⟨hprogress.located config hconfig, hholds.directory, fun test hmem => ?_,
    fun file entry => ?_⟩
  · rcases hholds.filled test hmem with ⟨file, _, hfile, _⟩
    have hsome := (hholds.isSome_iff file).mpr ⟨test, hmem, hfile.symm⟩
    rcases Option.isSome_iff_exists.mp hsome with ⟨entry, hentry⟩
    -- Whatever stands at a file of a test case is a wrapper.
    rcases (hholds.entries file entry).mp hentry with ⟨_, _, _, _, rfl⟩
    exact ⟨file, _, hfile, hentry⟩
  · rw [hholds.entries file entry]
    constructor
    · intro hentry
      rcases hentry with ⟨test, text, hlast, htext, heq⟩
      rcases (lastNamed_eq_some_iff_greatest hsorted file test).mp hlast with
        ⟨hmem, hfile, hgreatest⟩
      exact ⟨test, hmem, hfile, hgreatest, text, htext, heq⟩
    · intro hentry
      rcases hentry with ⟨test, hmem, hfile, hgreatest, text, htext, heq⟩
      exact ⟨test, text, (lastNamed_eq_some_iff_greatest hsorted file test).mpr
        ⟨hmem, hfile, hgreatest⟩, htext, heq⟩

/-- Test cases in `t` and wrappers in `o`. -/
def sampleLayout : Layout := ⟨.ofString "t", .ofString "o"⟩

/-- The location that names lead to from the root. -/
def sampleLocation (names : List String) : Location :=
  (names.filterMap fun text => Name.ofBytes? (Utf8.encode text)).reverse

/-- Two test cases that share a file, and a wrapper of none. -/
def sampleFiles : FileSystem where
  tree :=
    ([["t"], ["t", "dx"], ["t", "dx", "a-b"], ["t", "dx", "a_b"], ["o"], ["o", "dx"],
      ["o", "dx", "r8"]].foldl (fun tree names => tree.put (sampleLocation names) .directory)
        Tree.empty).put (sampleLocation ["o", "dx", "r8", "Stale.java"])
          (.file (Utf8.encode "// edited"))
  workingDirectory := []
  pathLimit := none

theorem testCases_sampleFiles :
    testCases sampleFiles (sourceDir sampleLayout) = .ok ["a-b", "a_b"] :=
  testCases_of_perm rfl (by decide) (by decide)

theorem ready_sampleFiles : Ready sampleLayout ["a-b", "a_b"] sampleFiles :=
  ⟨rfl, by decide, by decide, by decide, by decide⟩

theorem apart_sampleFiles : Apart sampleLayout sampleFiles :=
  ⟨by decide, Tree.Unlinked.of_directory rfl, by decide, by decide, by decide⟩

theorem undisturbed_sampleFiles : Undisturbed sampleLayout sampleFiles :=
  ready_sampleFiles.undisturbed apart_sampleFiles

/-- A run in the sample ends with both test cases in one file, which has the text of
    the greater one, and without the old wrapper. -/
theorem generate_leaves_sample :
    ∃ summary after, (generate sampleLayout : Run Summary) ⟨sampleFiles, []⟩ =
        (.ok summary, after) ∧ summary = ⟨5, 10⟩ ∧
      ∀ config ∈ configurations sampleLayout,
        after.files.tree.get? (⟨Utf8.encode "Stale.java", by decide⟩ :: place config sampleFiles) =
          none ∧
        ∃ text, Wrapper.render ⟨"a_b"⟩ config = .ok text ∧
          after.files.tree.get?
              (⟨Utf8.encode "Arta_bTest.java", by decide⟩ :: place config sampleFiles) =
            some (.file (Utf8.encode text)) := by
  rcases exists_generate [] undisturbed_sampleFiles ready_sampleFiles testCases_sampleFiles with
    ⟨summary, after, hrun⟩
  rcases generate_leaves undisturbed_sampleFiles hrun with
    ⟨tests, htests, _, hsummary, _, hconfigs, _⟩
  have heq : tests = ["a-b", "a_b"] := Except.ok.inj (htests.symm.trans testCases_sampleFiles)
  subst heq
  refine ⟨summary, after, hrun, hsummary, fun config hconfig => ⟨?_, ?_⟩⟩
  · rcases hconfigs config hconfig with ⟨_, _, _, hentries⟩
    refine Option.eq_none_iff_forall_ne_some.mpr fun entry hentry => ?_
    rcases (hentries _ _).mp hentry with ⟨test, hmem, hfile, _⟩
    -- The old wrapper belongs to neither test case.
    have hnone : ∀ test ∈ ["a-b", "a_b"],
        Utf8.encode (TestCase.fileName ⟨test⟩) ≠ Utf8.encode "Stale.java" := by
      decide
    exact hnone test hmem hfile
  · rcases hconfigs config hconfig with ⟨_, _, _, hentries⟩
    rcases Wrapper.exists_render_eq_ok ⟨"a_b"⟩ config with ⟨text, htext⟩
    refine ⟨text, htext, (hentries _ _).mpr ⟨"a_b", by decide, by decide, ?_, text, htext, rfl⟩⟩
    have hgreatest : ∀ other ∈ ["a-b", "a_b"], Utf8.encode other ≤ Utf8.encode "a_b" := by
      decide
    exact fun other hmem _ => hgreatest other hmem

end Generation

end TestWrappers
