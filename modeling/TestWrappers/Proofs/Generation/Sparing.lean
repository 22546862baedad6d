import TestWrappers.Proofs.FileSystem.Sparing
import TestWrappers.Proofs.Generation.Exact

/-!
# What a Configuration Spares

What the work on a configuration leaves alone, wherever links lead and however it
ends.

Two things could reach beyond the directory of a configuration: the removal, if it
went through a link to what the link leads to, and the writing, since a file is
opened through links. The removal stops at links. The writing would not stop, but
when it starts the directory has been made anew, and from then on only wrappers
come into it, so there is no link that it could go through.

## Main definitions

* `Generation.linkedFiles`: Links as the directory of a layout, and in it.

## Theorems

* `Generation.exists_stages`: What is removed, made and written, in this order.
* `Generation.generateConfiguration_spares`: What a configuration spares, and
  what it adds.
-/

namespace TestWrappers

namespace Generation

variable {config : Configuration} {layout : Layout} {files reached : FileSystem}
  {result : Except Failure Nat} {world after : World}

/-- However the work on a configuration ends: at most what its path leads to is
    removed, then directories are made on its path, and then wrappers may come into
    an empty directory that it leads to. -/
theorem exists_stages (h : Ending config files result reached) :
    ∃ left base, FileSystem.Reduced config.outputDir files left ∧
      FileSystem.Grown config.outputDir.ancestors left base ∧
      (reached = base ∨ ∃ here tests, FileSystem.Vacant config.outputDir here base ∧
        Filled config tests here base reached) := by
  have hreset : ∀ {outcome : Except FileError Unit} {base : FileSystem},
      resetFiles files config.outputDir = (outcome, base) →
        ∃ left, FileSystem.Reduced config.outputDir files left ∧
          FileSystem.Grown config.outputDir.ancestors left base := by
    intro outcome base hbase
    have hframe := FileSystem.resetFiles_frame files config.outputDir
    rw [hbase] at hframe
    exact hframe
  cases h with
  | unfound hfound =>
    exact ⟨files, files, FileSystem.Reduced.refl _ files, FileSystem.Grown.refl _ files,
      Or.inl rfl⟩
  | uncleared _ hfailed =>
    rcases hreset hfailed with ⟨left, hreduced, hgrown⟩
    exact ⟨left, reached, hreduced, hgrown, Or.inl rfl⟩
  | unfit _ hbase hvacant hfilled _ _ =>
    rcases hreset hbase with ⟨left, hreduced, hgrown⟩
    exact ⟨left, _, hreduced, hgrown, Or.inr ⟨_, _, hvacant, hfilled⟩⟩
  | complete _ hbase hvacant hfilled _ =>
    rcases hreset hbase with ⟨left, hreduced, hgrown⟩
    exact ⟨left, _, hreduced, hgrown, Or.inr ⟨_, _, hvacant, hfilled⟩⟩

/-- Whatever is not to be removed is still there. -/
theorem kept_of_ending (h : Ending config files result reached) {place : Location} {entry : Entry}
    (hentry : files.tree.get? place = some entry)
    (htaken : ¬ files.TakenBy config.outputDir place) :
    reached.tree.get? place = some entry := by
  rcases exists_stages h with ⟨left, base, hreduced, hgrown, hlast⟩
  have hbase := hgrown.kept place entry ((hreduced.kept place htaken).trans hentry)
  rcases hlast with rfl | ⟨_, _, _, hfilled⟩
  · exact hbase
  · exact hfilled.stocked.kept place entry hbase

/-- Whatever is new is a directory that has been made or a wrapper. -/
theorem new_of_ending (h : Ending config files result reached) {place : Location} {entry : Entry}
    (hentry : reached.tree.get? place = some entry) :
    files.tree.get? place = some entry ∨
      (entry = .directory ∧ ∃ way ∈ config.outputDir.ancestors, reached.locate way = .ok place) ∨
      ∃ file here test text, place = file :: here ∧
        reached.locate config.outputDir = .ok here ∧
        file.bytes = Utf8.encode (TestCase.fileName ⟨test⟩) ∧
        Wrapper.render ⟨test⟩ config = .ok text ∧ entry = .file (Utf8.encode text) := by
  rcases exists_stages h with ⟨left, base, hreduced, hgrown, hlast⟩
  -- What is there once the directory has been reset was there or has been made.
  have hbase : base.tree.get? place = some entry → files.tree.get? place = some entry ∨
      (entry = .directory ∧ ∃ way ∈ config.outputDir.ancestors, base.locate way = .ok place) := by
    intro hin
    cases hleft : left.tree.get? place with
    | none => exact Or.inr (hgrown.made place entry hleft hin)
    | some found =>
      have hsame := (hgrown.kept place found hleft).symm.trans hin
      exact Or.inl (hreduced.part place entry (hleft.trans hsame))
  rcases hlast with rfl | ⟨here, tests, hvacant, hfilled⟩
  · exact (hbase hentry).imp_right Or.inl
  · by_cases hfile : ∃ file, place = file :: here
    · rcases hfile with ⟨file, rfl⟩
      rcases (hfilled.holds.entries file entry).mp hentry with ⟨test, text, hlast, htext, hdone⟩
      rcases (lastNamed_eq_some_iff _ _ _).mp hlast with ⟨_, _, _, hname, _⟩
      exact Or.inr (Or.inr ⟨file, here, test, text, rfl, hfilled.stocked.locate hvacant.located,
        hname.symm, htext, hdone⟩)
    · rw [hfilled.stocked.elsewhere place fun file heq => hfile ⟨file, heq⟩] at hentry
      rcases hbase hentry with hold | ⟨rfl, way, hway, hplace⟩
      · exact Or.inl hold
      · exact Or.inr (Or.inl ⟨rfl, way, hway, hfilled.stocked.locate hplace⟩)

/-- Whatever a configuration returns, it has removed nothing but the entry that its
    path names and what is inside of it, and that only if the path leads somewhere.
    If the entry is a link, what the path leads to is elsewhere, and nothing but the
    link is gone. What is new is a directory that the path or one on its way leads
    to, or a wrapper in the directory that the path leads to. -/
theorem generateConfiguration_spares (hconfig : config ∈ configurations layout)
    (hup : Path.Component.up ∉ layout.outputDir.components)
    (h : (generateConfiguration config : Run Nat) world = (result, after)) :
    (∀ place entry, world.files.tree.get? place = some entry →
      ¬ world.files.TakenBy config.outputDir place →
      after.files.tree.get? place = some entry) ∧
    (∀ named target, world.files.locateEntry config.outputDir = .ok named →
      world.files.tree.get? named = some (.link target) →
      (∀ there, world.files.locate config.outputDir = .ok there → there ≠ named) ∧
      ∀ place entry, place ≠ named → world.files.tree.get? place = some entry →
        after.files.tree.get? place = some entry) ∧
    ∀ place entry, after.files.tree.get? place = some entry →
      world.files.tree.get? place = some entry ∨
      (entry = .directory ∧
        ∃ way ∈ config.outputDir.ancestors, after.files.locate way = .ok place) ∨
      ∃ file here test text, place = file :: here ∧
        after.files.locate config.outputDir = .ok here ∧
        file.bytes = Utf8.encode (TestCase.fileName ⟨test⟩) ∧
        Wrapper.render ⟨test⟩ config = .ok text ∧ entry = .file (Utf8.encode text) := by
  have hend := ending_of_run hconfig hup h
  refine ⟨fun place entry => kept_of_ending hend, fun named target hnamed hlink => ⟨?_, ?_⟩,
    fun place entry => new_of_ending hend⟩
  · intro there hthere heq
    rcases Configuration.route_of_mem hconfig hup with ⟨_, ⟨name, hlast⟩, _⟩
    exact FileSystem.not_link_of_locate hlast hthere target (heq ▸ hlink)
  · intro place entry hne hentry
    refine kept_of_ending hend hentry fun htaken => ?_
    rcases htaken with ⟨_, other, hother, hin⟩
    have hsame := Except.ok.inj (hnamed.symm.trans hother)
    exact hne (Tree.eq_of_isWithin_link hlink hentry (hsame ▸ hin))

/-- One test case, a link in place of the directory of a layout, and in a directory
    for wrappers a link to a directory of others. -/
def linkedFiles : FileSystem where
  tree :=
    ((([["t"], ["t", "dx"], ["t", "dx", "a"], ["p"], ["p", "dx"], ["p", "dx", "r8"],
      ["k"]].foldl (fun tree names => tree.put (sampleLocation names) .directory)
        Tree.empty).put (sampleLocation ["k", "x"]) (.file (Utf8.encode "kept"))).put
          (sampleLocation ["p", "dx", "r8", "l"]) (.link (.ofString "/k"))).put
            (sampleLocation ["o"]) (.link (.ofString "p"))
  workingDirectory := []
  pathLimit := none

/-- A directory for wrappers is emptied that is reached through a link. Neither that
    link nor what the link inside of the directory leads to is touched. -/
theorem generateConfiguration_spares_linked :
    ∃ config ∈ configurations sampleLayout, ∃ after,
      (generateConfiguration config : Run Nat) ⟨linkedFiles, []⟩ = (.ok 1, after) ∧
      after.files.tree.get? (sampleLocation ["o"]) = some (.link (.ofString "p")) ∧
      after.files.tree.get? (sampleLocation ["k", "x"]) = some (.file (Utf8.encode "kept")) := by
  have hfirst : ∃ config left, configurations sampleLayout = config :: left ∧
      config.outputDir = .ofString "o/dx/r8" := ⟨_, _, rfl, by decide⟩
  rcases hfirst with ⟨config, left, hconfigs, houtput⟩
  have hconfig : config ∈ configurations sampleLayout := hconfigs ▸ List.mem_cons_self
  have hup : Path.Component.up ∉ sampleLayout.outputDir.components := by decide
  have htests : testCases linkedFiles config.sourceDir = .ok ["a"] := by
    rw [(Configuration.paths_of_mem hconfig).1]
    exact testCases_of_perm rfl (by decide) (by decide)
  have hreset : ∃ base, resetFiles linkedFiles config.outputDir = (.ok (), base) := by
    rw [houtput]
    exact ⟨_, rfl⟩
  have hshort : ∀ test ∈ ["a"], (Utf8.encode test).length + 12 ≤ Name.maxLength := by decide
  have hrun : ∃ after, (generateConfiguration config : Run Nat) ⟨linkedFiles, []⟩ = (.ok 1, after) :=
    exists_generateConfiguration hconfig hup htests hreset fun test hmem =>
      (fits_iff rfl).mpr (hshort test hmem)
  rcases hrun with ⟨after, hrun⟩
  -- The directory itself is named, seen through the first link.
  have hnamed : linkedFiles.locateEntry config.outputDir =
      .ok (sampleLocation ["p", "dx", "r8"]) := by
    rw [houtput]
    rfl
  have hspared : ∀ place : Location, place.isWithin (sampleLocation ["p", "dx", "r8"]) = false →
      ¬ linkedFiles.TakenBy config.outputDir place := by
    intro place hout htaken
    rcases htaken with ⟨_, entry, hentry, hin⟩
    rw [← Except.ok.inj (hnamed.symm.trans hentry), hout] at hin
    exact absurd hin Bool.false_ne_true
  have hkept := (generateConfiguration_spares hconfig hup hrun).1
  exact ⟨config, hconfig, after, hrun, hkept _ _ rfl (hspared _ (by decide)),
    hkept _ _ rfl (hspared _ (by decide))⟩

end Generation

end TestWrappers
