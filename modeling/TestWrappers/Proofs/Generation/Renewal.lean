import TestWrappers.Proofs.Generation.Exact
import TestWrappers.Proofs.Generation.Reset

/-!
# All or Nothing

A reset either leaves an empty directory or has changed nothing.

A path that goes to names only, and passes no link, can be reset unless a file is in
its place or on its way, or a link in its place leads nowhere. What is in the way is
met before anything is changed. A file on the way stops the question whether something
is there, and then the attempt to make the directory, and a file in its place is not
removed as a directory would be. A link that leads nowhere is taken for nothing by the
question and for something by the attempt.

In all other cases the removal leaves a directory to make the new one in, or there was
nothing to remove and the missing directories are made one after the other. The new
directory can be reset once more, and that changes nothing.

## Main definitions

* `FileSystem.Direct`: A path that goes to names only and passes no link.
* `FileSystem.MeetsFile`: A file is in the place of a path or on its way.
* `FileSystem.EndsAtDeadLink`: A link that leads nowhere is in the place of a path.
* `Generation.tangledFiles`: A directory, a file, and links that lead somewhere and
  nowhere.

## Theorems

* `FileSystem.Direct.resetFiles_of_meetsFile`,
  `FileSystem.Direct.resetFiles_of_endsAtDeadLink`: What stops a reset.
* `FileSystem.Direct.exists_resetFiles`: Nothing else does.
* `FileSystem.Direct.of_emptied`: The path of an emptied directory.
* `Generation.reset_all_or_nothing`: What a reset does in each case.
-/

namespace TestWrappers

namespace FileSystem

variable {files after : FileSystem} {path : Path} {name : Name}

/-- The path goes to names only and the last one is the given one. It starts in a
    directory, nothing that it passes is a link, and paths may be as long as they
    want. -/
structure Direct (files : FileSystem) (path : Path) (name : Name) : Prop where
  /-- No path is too long. -/
  unlimited : files.pathLimit = none
  /-- The segments are names, or say nothing. -/
  plain : path.IsPlain
  /-- The last segment is the name. -/
  last : path.segments.getLast? = some name.bytes
  /-- The path starts in a directory. -/
  start : files.tree.get? (path.route.start files.workingDirectory) = some .directory
  /-- Nothing around where the path lands is a link. -/
  unlinked : files.tree.Unlinked (path.landing files.workingDirectory).tail

/-- A file is where the path lands or around it. -/
def MeetsFile (files : FileSystem) (path : Path) : Prop :=
  ∃ outer contents, (path.landing files.workingDirectory).isWithin outer = true ∧
    files.tree.get? outer = some (.file contents)

/-- The path lands at a link and leads nowhere. -/
def EndsAtDeadLink (files : FileSystem) (path : Path) : Prop :=
  (∃ target, files.tree.get? (path.landing files.workingDirectory) = some (.link target)) ∧
    ∀ place, files.locate path ≠ .ok place

theorem Direct.exists_join (h : files.Direct path name) :
    ∃ base : Path, path = base.join ⟨name.bytes⟩ ∧ base.IsPlain := by
  rcases Path.exists_join_of_getLast? h.last with ⟨base, hpath, hbase⟩
  exact ⟨base, hpath, hbase h.plain⟩

/-- The path can be looked up, and its last step goes to the name. -/
theorem Direct.route (h : files.Direct path name) : files.route path = .ok path.route ∧
    path.route.last? = some (.enter name) ∧ path.route.slash = false := by
  rcases h.exists_join with ⟨base, rfl, hbase⟩
  refine ⟨route_join_of_isPlain h.unlimited hbase name, ?_, ?_⟩
  · rw [Path.route_join_name]
    exact List.getLast?_concat
  · rw [Path.route_join_name]

theorem Direct.resetFiles_of_meetsFile (h : files.Direct path name) (hfile : files.MeetsFile path) :
    Generation.resetFiles files path = (.error (.system .notDirectory), files) := by
  rcases h.route with ⟨hroute, hlast, hslash⟩
  rcases hfile with ⟨outer, contents, hin, hfile⟩
  rw [landing_eq_cons hlast] at hin
  rcases Location.isWithin_cons_iff.mp hin with rfl | haround
  · rw [← landing_eq_cons hlast] at hfile
    exact resetFiles_of_file hroute hlast hslash h.plain.climb_notMem h.plain.overlong_notMem hfile
  · exact resetFiles_behind_file hroute h.plain hlast hslash h.start hfile haround

theorem Direct.resetFiles_of_endsAtDeadLink (h : files.Direct path name)
    (hlink : files.EndsAtDeadLink path) :
    Generation.resetFiles files path = (.error (.system .alreadyExists), files) := by
  rcases h.route with ⟨hroute, hlast, _⟩
  rcases hlink with ⟨⟨target, hlink⟩, hnowhere⟩
  have hmissing : files.pathExists path = false := by
    refine Bool.eq_false_iff.mpr fun hexists => ?_
    rcases (pathExists_iff files path).mp hexists with ⟨place, hplace, _⟩
    exact hnowhere place hplace
  unfold Generation.resetFiles
  rw [hmissing, if_neg Bool.false_ne_true]
  exact makeDirs_of_link hroute hlast h.plain.climb_notMem h.plain.overlong_notMem hlink hmissing

/-- A path that leads anywhere leads to something. -/
theorem Direct.pathExists_of_locate (h : files.Direct path name) {place : Location}
    (hplace : files.locate path = .ok place) : files.pathExists path = true := by
  refine (pathExists_iff files path).mpr ⟨place, hplace, ?_⟩
  exact Tree.get?_of_walk (Option.isSome_of_eq_some h.start)
    ((locate_eq_ok_iff files path place).mp hplace).2

/-- Nothing but a file or a link that leads nowhere stops a reset. -/
theorem Direct.exists_resetFiles (h : files.Direct path name) (hfile : ¬ files.MeetsFile path)
    (hlink : ¬ files.EndsAtDeadLink path) :
    ∃ after, Generation.resetFiles files path = (.ok (), after) := by
  rcases h.route with ⟨hroute, hlast, hslash⟩
  have hclimb := h.plain.climb_notMem
  have hlong := h.plain.overlong_notMem
  cases hentry : files.tree.get? (path.landing files.workingDirectory) with
  | none =>
    -- What there is on the way are directories.
    have hopen : files.tree.Open (path.landing files.workingDirectory) := by
      intro outer entry hin houter
      cases entry with
      | directory => rfl
      | file contents => exact absurd ⟨outer, contents, hin, houter⟩ hfile
      | link target =>
        rw [landing_eq_cons hlast] at hin hentry
        rcases Location.isWithin_cons_iff.mp hin with rfl | haround
        · rw [hentry] at houter
          cases houter
        · exact absurd houter (h.unlinked outer target haround)
    rcases h.exists_join with ⟨base, rfl, hbase⟩
    have hstart := h.start
    rw [Path.route_join_name] at hstart
    exact resetFiles_of_open h.unlimited hbase name hstart hopen
  | some entry =>
    cases entry with
    | directory => exact resetFiles_of_directory hroute hlast hslash hclimb hlong hentry
    | file contents => exact absurd ⟨_, contents, Location.isWithin_refl _, hentry⟩ hfile
    | link target =>
      have hsomewhere : ∃ place, files.locate path = .ok place :=
        Classical.not_forall_not.mp fun hnowhere => hlink ⟨⟨target, hentry⟩, hnowhere⟩
      rcases hsomewhere with ⟨place, hplace⟩
      exact resetFiles_of_link hroute hlast hslash hclimb hlong hentry
        (h.pathExists_of_locate hplace)

/-- The path of an emptied directory goes to names only and passes no link. -/
theorem Direct.of_emptied (h : files.Direct path name)
    (hemptied : Emptied (path.landing files.workingDirectory) files after) :
    after.Direct path name := by
  have hcwd := hemptied.confined.workingDirectory
  have hdir := hemptied.directory
  rw [← hcwd] at hdir
  refine ⟨hemptied.confined.pathLimit.trans h.unlimited, h.plain, h.last, ?_, ?_⟩
  · exact Tree.get?_of_isWithin hdir (Location.isWithin_along _ path.route.steps)
  · exact (Tree.Unlinked.of_directory hdir).outer (Location.isWithin_iff.mpr (List.tail_suffix _))

/-- Resetting an emptied directory changes nothing. -/
theorem Direct.exists_resetFiles_of_emptied (h : files.Direct path name)
    (hemptied : Emptied (path.landing files.workingDirectory) files after) :
    ∃ again, Generation.resetFiles after path = (.ok (), again) ∧
      again.workingDirectory = after.workingDirectory ∧ again.pathLimit = after.pathLimit ∧
      ∀ place, again.tree.get? place = after.tree.get? place := by
  have hafter := h.of_emptied hemptied
  rcases hafter.route with ⟨hroute, hlast, hslash⟩
  have hclimb := h.plain.climb_notMem
  have hdir := hemptied.directory
  rw [← hemptied.confined.workingDirectory] at hdir
  rcases resetFiles_of_directory hroute hlast hslash hclimb h.plain.overlong_notMem hdir with
    ⟨again, hagain⟩
  have hemptied' := (emptied_of_resetFiles hclimb hlast hslash hafter.unlinked hagain).1
  refine ⟨again, hagain, hemptied'.confined.workingDirectory, hemptied'.confined.pathLimit, ?_⟩
  rw [hemptied.confined.workingDirectory] at hemptied'
  exact hemptied.get?_eq hemptied'

end FileSystem

/-- The directory of a configuration has a name, and its path goes to names only if that
    of the layout does. -/
theorem Configuration.plain_outputDir {layout : Layout} {config : Configuration}
    (h : config ∈ configurations layout) :
    (∃ name : Name, config.outputDir.segments.getLast? = some name.bytes) ∧
      (layout.outputDir.IsPlain → config.outputDir.IsPlain) := by
  refine ⟨?_, Generation.plain_of_mem h⟩
  rcases outputDir_of_mem h with ⟨outer, inner, _, hpath⟩
  rcases Path.segments_join (layout.outputDir.join ⟨outer.bytes⟩) inner.valid.2.2.2.1
    inner.valid.1 with ⟨front, hsegments, _⟩
  refine ⟨inner, ?_⟩
  rw [hpath, hsegments]
  exact List.getLast?_concat

namespace Generation

/-- A reset is all or nothing. Behind a file, or in the place of one, no directory is
    made, nor in the place of a link that leads nowhere, and then nothing has changed. In
    every other case an empty directory is left where the path lands, and nothing else
    has changed but for missing directories around it. Another reset then changes nothing
    at all. The directories of configurations have paths of this kind. -/
theorem reset_all_or_nothing (world : World) (path : Path) (name : Name)
    (h : world.files.Direct path name) :
    (world.files.MeetsFile path →
      (reset path : Run Unit) world = (.error (.clearing path (.system .notDirectory)), world)) ∧
    (world.files.EndsAtDeadLink path →
      (reset path : Run Unit) world = (.error (.clearing path (.system .alreadyExists)), world)) ∧
    (¬ world.files.MeetsFile path → ¬ world.files.EndsAtDeadLink path →
      ∃ after, (reset path : Run Unit) world = (.ok (), after) ∧ after.events = world.events ∧
        FileSystem.Emptied (path.landing world.files.workingDirectory) world.files after.files ∧
        after.files.locate path = .ok (path.landing world.files.workingDirectory) ∧
        ∃ again, (reset path : Run Unit) after = (.ok (), again) ∧ again.events = after.events ∧
          again.files.workingDirectory = after.files.workingDirectory ∧
          again.files.pathLimit = after.files.pathLimit ∧
          ∀ place, again.files.tree.get? place = after.files.tree.get? place) ∧
    ∀ layout config, config ∈ configurations layout →
      (∃ name : Name, config.outputDir.segments.getLast? = some name.bytes) ∧
        (layout.outputDir.IsPlain → config.outputDir.IsPlain) := by
  refine ⟨fun hfile => ?_, fun hlink => ?_, fun hfile hlink => ?_,
    fun _ _ => Configuration.plain_outputDir⟩
  · rw [run_reset, h.resetFiles_of_meetsFile hfile]
    rfl
  · rw [run_reset, h.resetFiles_of_endsAtDeadLink hlink]
    rfl
  · rcases h.exists_resetFiles hfile hlink with ⟨after, hafter⟩
    rcases h.route with ⟨_, hlast, hslash⟩
    rcases FileSystem.emptied_of_resetFiles h.plain.climb_notMem hlast hslash h.unlinked hafter with
      ⟨hemptied, hlocate⟩
    rcases h.exists_resetFiles_of_emptied hemptied with ⟨again, hagain, hcwd, hlimit, hsame⟩
    exact ⟨⟨after, world.events⟩, (run_reset_eq_ok_iff _ _ _).mpr ⟨hafter, rfl⟩, rfl, hemptied,
      hlocate, ⟨again, world.events⟩, (run_reset_eq_ok_iff _ _ _).mpr ⟨hagain, rfl⟩, rfl, hcwd,
      hlimit, hsame⟩

/-- A directory `d` with a file, a file `f`, a link `k` to the directory and a link `l` to
    itself. -/
def tangledFiles : FileSystem where
  tree :=
    ((((Tree.empty.put (sampleLocation ["d"]) .directory).put
      (sampleLocation ["d", "Stale.java"]) (.file (Utf8.encode "// edited"))).put
        (sampleLocation ["f"]) (.file [])).put
          (sampleLocation ["k"]) (.link (.ofString "d"))).put
            (sampleLocation ["l"]) (.link (.ofString "l"))
  workingDirectory := []
  pathLimit := none

/-- Behind the file and at the link to itself nothing changes. The other link is replaced
    by a directory, and what it has led to stays. A directory in a missing one is made. -/
theorem reset_all_or_nothing_sample :
    (reset (.ofString "f/x") : Run Unit) ⟨tangledFiles, []⟩ =
      (.error (.clearing (.ofString "f/x") (.system .notDirectory)), ⟨tangledFiles, []⟩) ∧
    (reset (.ofString "l") : Run Unit) ⟨tangledFiles, []⟩ =
      (.error (.clearing (.ofString "l") (.system .alreadyExists)), ⟨tangledFiles, []⟩) ∧
    (∃ after, (reset (.ofString "k") : Run Unit) ⟨tangledFiles, []⟩ = (.ok (), after) ∧
      after.files.tree.get? (sampleLocation ["k"]) = some .directory ∧
      (after.files.tree.get? (sampleLocation ["d", "Stale.java"])).isSome = true) ∧
    ∃ after, (reset (.ofString "a/b") : Run Unit) ⟨tangledFiles, []⟩ = (.ok (), after) ∧
      after.files.tree.get? (sampleLocation ["a", "b"]) = some .directory := by
  have hbehind : tangledFiles.Direct (.ofString "f/x") ⟨Utf8.encode "x", by decide⟩ :=
    ⟨rfl, by decide, rfl, rfl, Tree.Unlinked.of_entry rfl nofun⟩
  have hself : tangledFiles.Direct (.ofString "l") ⟨Utf8.encode "l", by decide⟩ :=
    ⟨rfl, by decide, rfl, rfl, Tree.Unlinked.of_directory rfl⟩
  have hlink : tangledFiles.Direct (.ofString "k") ⟨Utf8.encode "k", by decide⟩ :=
    ⟨rfl, by decide, rfl, rfl, Tree.Unlinked.of_directory rfl⟩
  have hopen : tangledFiles.tree.Open
      ((Path.ofString "a/b").landing tangledFiles.workingDirectory) := by
    decide
  have hmissing : tangledFiles.Direct (.ofString "a/b") ⟨Utf8.encode "b", by decide⟩ :=
    ⟨rfl, by decide, rfl, rfl,
      hopen.unlinked.outer (Location.isWithin_iff.mpr (List.tail_suffix _))⟩
  have hloop : ∀ place, tangledFiles.locate (.ofString "l") ≠ .ok place := fun place hplace =>
    absurd (hplace.symm.trans (by rfl : _ = Except.error (FileError.system .loop))) nofun
  refine ⟨(reset_all_or_nothing ⟨tangledFiles, []⟩ _ _ hbehind).1
      ⟨sampleLocation ["f"], [], by decide, rfl⟩,
    (reset_all_or_nothing ⟨tangledFiles, []⟩ _ _ hself).2.1 ⟨⟨.ofString "l", rfl⟩, hloop⟩, ?_, ?_⟩
  · have hfree : ¬ tangledFiles.MeetsFile (.ofString "k") := by
      rintro ⟨outer, contents, hin, hfile⟩
      rcases Location.isWithin_cons_iff.mp hin with rfl | hroot
      · cases hfile
      · rw [List.suffix_nil.mp (Location.isWithin_iff.mp hroot)] at hfile
        cases hfile
    have hleads : tangledFiles.locate (.ofString "k") = .ok (sampleLocation ["d"]) := rfl
    rcases (reset_all_or_nothing ⟨tangledFiles, []⟩ _ _ hlink).2.2.1 hfree
      (fun hdead => hdead.2 _ hleads) with ⟨after, hafter, _, hemptied, _⟩
    refine ⟨after, hafter, hemptied.directory, ?_⟩
    rcases hemptied.confined.outside (sampleLocation ["d", "Stale.java"]) (by decide) with
      hsame | ⟨hnone, _⟩
    · rw [hsame]
      rfl
    · cases hnone
  · have hfree : ¬ tangledFiles.MeetsFile (.ofString "a/b") := by
      rintro ⟨outer, contents, hin, hfile⟩
      exact absurd (hopen outer _ hin hfile) nofun
    have hdead : ¬ tangledFiles.EndsAtDeadLink (.ofString "a/b") := by
      rintro ⟨⟨target, hentry⟩, _⟩
      cases hentry
    rcases (reset_all_or_nothing ⟨tangledFiles, []⟩ _ _ hmissing).2.2.1 hfree hdead with
      ⟨after, hafter, _, hemptied, _⟩
    exact ⟨after, hafter, hemptied.directory⟩

end Generation

end TestWrappers
