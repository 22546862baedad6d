import TestWrappers.Proofs.Generation.Repeating

/-!
# One Test Case More

How the directories for wrappers change with the test cases that are found.

A new name can stand anywhere in the order of the test cases, and all wrappers
behind it are then written later. Still it matters to one file only, its own: any
other file belongs to the same test cases as before. If no other test case has that
file, it comes in addition. Otherwise it is there already, and goes to the greatest
of those that share it, which may be the new one or not.

Read in the other direction this is what becomes of the directories when a test
case is taken away.

## Main definitions

* `Generation.singleFiles`: One test case of the sample and nothing else.

## Theorems

* `Generation.lastNamed_of_ne`: A new test case matters to its own file only.
* `Generation.generate_adds`: What one more test case changes.
-/

namespace TestWrappers

namespace Generation

variable {config : Configuration} {layout : Layout} {tests tests' : List String} {test : String}
  {file : Name} {here : Location} {files : FileSystem} {world after world' after' : World}

/-- Files to which a new test case does not go end up with the test case that they
    had. -/
theorem lastNamed_of_ne (hsorted : tests.Pairwise fun a b => Utf8.encode a < Utf8.encode b)
    (hsorted' : tests'.Pairwise fun a b => Utf8.encode a < Utf8.encode b)
    (hadd : ∀ other, other ∈ tests' ↔ other = test ∨ other ∈ tests)
    (hne : Utf8.encode (TestCase.fileName ⟨test⟩) ≠ file.bytes) :
    lastNamed tests' file = lastNamed tests file := by
  -- Of the test cases that go to the file, none is new.
  have hsame : ∀ other, Utf8.encode (TestCase.fileName ⟨other⟩) = file.bytes →
      (other ∈ tests' ↔ other ∈ tests) := by
    intro other hother
    refine (hadd other).trans (or_iff_right fun heq => hne ?_)
    rw [← heq]
    exact hother
  refine Option.ext fun last => ?_
  rw [lastNamed_eq_some_iff_greatest hsorted', lastNamed_eq_some_iff_greatest hsorted]
  constructor
  · intro h
    rcases h with ⟨hmem, hlast, hgreatest⟩
    exact ⟨(hsame last hlast).mp hmem, hlast, fun other hin hother =>
      hgreatest other ((hsame other hother).mpr hin) hother⟩
  · intro h
    rcases h with ⟨hmem, hlast, hgreatest⟩
    exact ⟨(hsame last hlast).mpr hmem, hlast, fun other hin hother =>
      hgreatest other ((hsame other hother).mp hin) hother⟩

/-- A file holds the wrapper of the test case that it ends up with. -/
theorem Holds.get?_of_lastNamed (h : Holds config tests here files)
    (hlast : lastNamed tests file = some test) :
    ∃ text, Wrapper.render ⟨test⟩ config = .ok text ∧
      files.tree.get? (file :: here) = some (.file (Utf8.encode text)) := by
  rcases Wrapper.exists_render_eq_ok ⟨test⟩ config with ⟨text, htext⟩
  exact ⟨text, htext, (h.entries file _).mpr ⟨test, text, hlast, htext, rfl⟩⟩

/-- The only test case of a file is the one that the file ends up with. -/
theorem lastNamed_eq_some_of_unshared
    (hsorted : tests'.Pairwise fun a b => Utf8.encode a < Utf8.encode b)
    (hadd : ∀ other, other ∈ tests' ↔ other = test ∨ other ∈ tests)
    (hfile : file.bytes = Utf8.encode (TestCase.fileName ⟨test⟩))
    (hunshared : ∀ other ∈ tests, TestCase.fileName ⟨other⟩ ≠ TestCase.fileName ⟨test⟩) :
    lastNamed tests' file = some test := by
  refine (lastNamed_eq_some_iff_greatest hsorted file test).mpr
    ⟨(hadd test).mpr (Or.inl rfl), hfile.symm, fun other hmem hother => ?_⟩
  rcases (hadd other).mp hmem with rfl | hin
  · exact List.le_refl _
  · exact absurd (Utf8.encode_inj (hother.trans hfile)) (hunshared other hin)

/-- What one more test case changes in the directories that a run leaves, whatever
    else is in the files that the runs start with. If the file of the test case is its
    own, that file is added with its wrapper. If it shares the file, the same files
    are there, and that file holds the wrapper of the greatest test case of all that
    share it. Everything else in the directories is the same. -/
theorem generate_adds {summary summary' : Summary} (hlayout : Undisturbed layout world.files)
    (hlayout' : Undisturbed layout world'.files)
    (h : (generate layout : Run Summary) world = (.ok summary, after))
    (h' : (generate layout : Run Summary) world' = (.ok summary', after'))
    (htests : testCases world.files (sourceDir layout) = .ok tests)
    (htests' : testCases world'.files (sourceDir layout) = .ok tests')
    (hadd : ∀ other, other ∈ tests' ↔ other = test ∨ other ∈ tests) :
    ∀ config ∈ configurations layout, ∃ here here' file,
      after.files.locate config.outputDir = .ok here ∧
      after'.files.locate config.outputDir = .ok here' ∧
      file.bytes = Utf8.encode (TestCase.fileName ⟨test⟩) ∧
      (∀ inner : Location, inner ≠ [file] →
        after'.files.tree.get? (inner ++ here') = after.files.tree.get? (inner ++ here)) ∧
      ((∀ other ∈ tests, TestCase.fileName ⟨other⟩ ≠ TestCase.fileName ⟨test⟩) →
        after.files.tree.get? (file :: here) = none ∧
        ∃ text, Wrapper.render ⟨test⟩ config = .ok text ∧
          after'.files.tree.get? (file :: here') = some (.file (Utf8.encode text))) ∧
      ((∃ other ∈ tests, TestCase.fileName ⟨other⟩ = TestCase.fileName ⟨test⟩) →
        (∀ name : Name, (after'.files.tree.get? (name :: here')).isSome =
          (after.files.tree.get? (name :: here)).isSome) ∧
        ∃ greatest text, (greatest = test ∨ greatest ∈ tests) ∧
          TestCase.fileName ⟨greatest⟩ = TestCase.fileName ⟨test⟩ ∧
          (∀ other, other = test ∨ other ∈ tests →
            TestCase.fileName ⟨other⟩ = TestCase.fileName ⟨test⟩ →
            Utf8.encode other ≤ Utf8.encode greatest) ∧
          Wrapper.render ⟨greatest⟩ config = .ok text ∧
          after'.files.tree.get? (file :: here') = some (.file (Utf8.encode text))) := by
  rcases holds_of_generate hlayout h with ⟨found, hfound, _, hprogress⟩
  rcases holds_of_generate hlayout' h' with ⟨found', hfound', _, hprogress'⟩
  rw [htests, Except.ok.injEq] at hfound
  rw [htests', Except.ok.injEq] at hfound'
  subst hfound hfound'
  have hsorted := pairwise_testCases htests
  have hsorted' := pairwise_testCases htests'
  intro config hconfig
  have hholds := hprogress.holds config hconfig
  have hholds' := hprogress'.holds config hconfig
  rcases hholds'.filled test ((hadd test).mpr (Or.inl rfl)) with ⟨file, _, hfile, _⟩
  have hothers : ∀ inner : Location, inner ≠ [file] →
      after'.files.tree.get? (inner ++ place config world'.files) =
        after.files.tree.get? (inner ++ place config world.files) := by
    intro inner hne
    refine hholds.get?_eq hholds' inner fun other hother => ?_
    refine lastNamed_of_ne hsorted hsorted' hadd fun heq => hne ?_
    rw [hother, Name.eq_of_bytes_eq (hfile.trans heq)]
  refine ⟨place config world.files, place config world'.files, file,
    hprogress.located config hconfig, hprogress'.located config hconfig, hfile, hothers, ?_, ?_⟩
  · intro hunshared
    refine ⟨Option.not_isSome_iff_eq_none.mp fun hsome => ?_,
      hholds'.get?_of_lastNamed (lastNamed_eq_some_of_unshared hsorted' hadd hfile hunshared)⟩
    rcases (hholds.isSome_iff file).mp hsome with ⟨other, hin, hother⟩
    exact hunshared other hin (Utf8.encode_inj (hother.trans hfile))
  · intro hshared
    rcases hshared with ⟨other, hin, hother⟩
    have hboth : (after.files.tree.get? (file :: place config world.files)).isSome = true :=
      (hholds.isSome_iff file).mpr ⟨other, hin, hother ▸ hfile.symm⟩
    -- Some test case is the one that the file ends up with, and it is the greatest.
    have hsome := (lastNamed_isSome_iff tests' file).mpr
      ⟨test, (hadd test).mpr (Or.inl rfl), hfile.symm⟩
    rcases Option.isSome_iff_exists.mp hsome with ⟨greatest, hgreatest⟩
    rcases hholds'.get?_of_lastNamed hgreatest with ⟨text, htext, hentry⟩
    rcases (lastNamed_eq_some_iff_greatest hsorted' file greatest).mp hgreatest with
      ⟨hmem, hname, hmax⟩
    refine ⟨fun name => ?_, greatest, text, (hadd greatest).mp hmem,
      Utf8.encode_inj (hname.trans hfile), fun last hlast hsame =>
        hmax last ((hadd last).mpr hlast) (hsame ▸ hfile.symm), htext, hentry⟩
    by_cases heq : name = file
    · rw [heq, hboth, hentry]
      rfl
    · exact congrArg Option.isSome (hothers [name] fun hsame => heq (List.cons.inj hsame).1)

/-- One test case of the sample and nothing else. -/
def singleFiles : FileSystem where
  tree :=
    [["t"], ["t", "dx"], ["t", "dx", "a-b"]].foldl
      (fun tree names => tree.put (sampleLocation names) .directory) Tree.empty
  workingDirectory := []
  pathLimit := none

theorem testCases_singleFiles : testCases singleFiles (sourceDir sampleLayout) = .ok ["a-b"] :=
  testCases_of_perm rfl (by decide) (by decide)

theorem ready_singleFiles : Ready sampleLayout ["a-b"] singleFiles :=
  ⟨rfl, by decide, by decide, by decide, by decide⟩

theorem undisturbed_singleFiles : Undisturbed sampleLayout singleFiles :=
  ready_singleFiles.undisturbed
    ⟨by decide, Tree.Unlinked.of_directory rfl, by decide, by decide, by decide⟩

/-- A test case that shares the file of a lesser one takes it over. -/
theorem generate_adds_shared :
    ∃ summary summary' after after',
      (generate sampleLayout : Run Summary) ⟨singleFiles, []⟩ = (.ok summary, after) ∧
      (generate sampleLayout : Run Summary) ⟨sampleFiles, []⟩ = (.ok summary', after') ∧
      ∀ config ∈ configurations sampleLayout, ∃ here here' file text,
        after.files.locate config.outputDir = .ok here ∧
        after'.files.locate config.outputDir = .ok here' ∧
        (∀ name : Name, (after'.files.tree.get? (name :: here')).isSome =
          (after.files.tree.get? (name :: here)).isSome) ∧
        Wrapper.render ⟨"a_b"⟩ config = .ok text ∧
        after'.files.tree.get? (file :: here') = some (.file (Utf8.encode text)) := by
  rcases exists_generate [] undisturbed_singleFiles ready_singleFiles testCases_singleFiles with
    ⟨summary, after, hrun⟩
  rcases exists_generate [] undisturbed_sampleFiles ready_sampleFiles testCases_sampleFiles with
    ⟨summary', after', hrun'⟩
  have hadd : ∀ other, other ∈ ["a-b", "a_b"] ↔ other = "a_b" ∨ other ∈ ["a-b"] := by
    intro other
    rw [List.mem_cons, List.mem_singleton, List.mem_singleton]
    exact or_comm
  have hstart : Undisturbed sampleLayout (World.mk singleFiles []).files := undisturbed_singleFiles
  have hstart' : Undisturbed sampleLayout (World.mk sampleFiles []).files := undisturbed_sampleFiles
  refine ⟨summary, summary', after, after', hrun, hrun', fun config hconfig => ?_⟩
  rcases generate_adds hstart hstart' hrun hrun' testCases_singleFiles testCases_sampleFiles hadd
    config hconfig with ⟨here, here', file, hlocate, hlocate', _, _, _, hshared⟩
  rcases hshared ⟨"a-b", List.mem_cons_self, by decide⟩ with
    ⟨hnames, greatest, text, hmem, _, hmax, htext, hentry⟩
  -- The lesser test case is not the greatest one.
  have hle := hmax "a_b" (Or.inl rfl) rfl
  have heq : greatest = "a_b" := by
    rcases hmem with heq | hin
    · exact heq
    · rw [List.mem_singleton.mp hin] at hle
      exact absurd hle (by decide)
  rw [heq] at htext
  exact ⟨here, here', file, text, hlocate, hlocate', hnames, htext, hentry⟩

end Generation

end TestWrappers
