import TestWrappers.FileSystem.Sweep
import TestWrappers.Proofs.FileSystem.Walking
import TestWrappers.Proofs.Path.Passage

/-!
# Building Directories

What making a directory and the directories on the way to it leaves behind.

A tree only grows by this. Everything that was there stays as it was, and
whatever is new is a directory to which one of the paths on the way leads. That
is `Grown`, and it holds whether or not the last directory could be made, so a
failure on the way is covered as well.

If all goes well the path leads to a directory. Whether that directory is a new
one is another matter. It may have been there and have come within reach only
because something in front of it was made. For a path that does not climb behind
a name this cannot happen: what is made on the way is empty and the path goes on
into it, so the rest of the path has to be made too. The path then leads to a
directory that it led to before, or to an empty one (`fresh_of_makeEach`).

## Main definitions

* `FileSystem.Grown`: A file system in which paths have been made.
* `FileSystem.Fresh`: A path names an empty directory.

## Theorems

* `FileSystem.grown_makeEach`: What making directories adds.
* `FileSystem.isDirectory_of_makeEach`: What has been made is there.
* `FileSystem.fresh_of_makeEach`: What has been made is new or was there before.
-/

namespace TestWrappers

namespace Tree

variable {tree : Tree} {stretches : Nat} {place last : Location} {route : Route}

theorem walk_steps_of_toEnd (h : tree.walk stretches place route.toEnd = .ok last) :
    tree.walk stretches place route.steps = .ok last := by
  unfold Route.toEnd at h
  split at h
  · exact (walk_concat_stay.mp h).1
  · exact h

theorem walk_toEnd_of_directory (h : tree.walk stretches place route.steps = .ok last)
    (hdir : tree.get? last = some .directory) :
    tree.walk stretches place route.toEnd = .ok last := by
  unfold Route.toEnd
  split
  · exact walk_concat_stay.mpr ⟨h, hdir⟩
  · exact h

end Tree

namespace FileSystem

theorem route_eq_ok_iff (files : FileSystem) (path : Path) (route : Route) :
    files.route path = .ok route ↔
      0 ∉ path.bytes ∧ path.bytes ≠ [] ∧ files.isTooLong path = false ∧ path.route = route := by
  unfold FileSystem.route
  split
  · rename_i hzero
    simp only [reduceCtorEq, hzero, not_true_eq_false, false_and]
  · rename_i hzero
    split
    · rename_i hnil
      simp only [reduceCtorEq, hnil, ne_eq, not_true_eq_false, false_and, and_false]
    · rename_i hnil
      split
      · rename_i hlong
        simp only [reduceCtorEq, hlong, Bool.true_eq_false, false_and, and_false]
      · rename_i hlong
        simp only [Except.ok.injEq, hzero, hnil, hlong, ne_eq, not_false_eq_true, true_and]

theorem route_congr {files other : FileSystem} (h : other.pathLimit = files.pathLimit)
    (path : Path) : other.route path = files.route path := by
  have hlong : other.isTooLong path = files.isTooLong path := by
    unfold isTooLong
    rw [h]
  unfold FileSystem.route
  rw [hlong]

theorem follow_eq_ok_iff (files : FileSystem) (route : Route) (steps : List Step)
    (place : Location) :
    files.follow route steps = .ok place ↔
      files.tree.walk (maxLinks + 1) (route.start files.workingDirectory) steps = .ok place := by
  unfold follow
  cases files.tree.walk (maxLinks + 1) (route.start files.workingDirectory) steps with
  | error errno => simp only [FileError.mapError_error, reduceCtorEq]
  | ok reached => simp only [FileError.mapError_ok, Except.ok.injEq]

theorem follow_eq_error_iff (files : FileSystem) (route : Route) (steps : List Step)
    (error : FileError) :
    files.follow route steps = .error error ↔
      ∃ errno, error = .system errno ∧
        files.tree.walk (maxLinks + 1) (route.start files.workingDirectory) steps =
          .error errno := by
  unfold follow
  cases files.tree.walk (maxLinks + 1) (route.start files.workingDirectory) steps with
  | error errno =>
    simp only [FileError.mapError_error, Except.error.injEq]
    constructor
    · intro h
      exact ⟨errno, h.symm, rfl⟩
    · intro h
      rcases h with ⟨other, rfl, rfl⟩
      rfl
  | ok reached => simp only [FileError.mapError_ok, reduceCtorEq, and_false, exists_false]

/-- The walk that a path asks for. -/
def walkOf (files : FileSystem) (path : Path) (steps : List Step) : Except Errno Location :=
  files.tree.walk (maxLinks + 1) (path.route.start files.workingDirectory) steps

theorem locate_eq_ok_iff (files : FileSystem) (path : Path) (place : Location) :
    files.locate path = .ok place ↔
      files.route path = .ok path.route ∧ files.walkOf path path.route.toEnd = .ok place := by
  simp only [locate, bind, Except.bind]
  cases hroute : files.route path with
  | error error => simp only [reduceCtorEq, false_and]
  | ok route =>
    have heq := ((route_eq_ok_iff files path route).mp hroute).2.2.2
    subst heq
    simp only [true_and]
    exact follow_eq_ok_iff files path.route path.route.toEnd place

/-- The directory that the last step of a path is taken in. -/
theorem followToLast_eq_ok_iff (files : FileSystem) (path : Path) (directory : Location) :
    files.follow path.route path.route.toLast = .ok directory ↔
      files.walkOf path path.route.steps.dropLast = .ok directory ∧
        files.tree.get? directory = some .directory := by
  rw [follow_eq_ok_iff]
  exact Tree.walk_concat_stay

theorem isDirectory_iff_locate (files : FileSystem) (path : Path) :
    files.isDirectory path = true ↔
      ∃ place, files.locate path = .ok place ∧ files.tree.get? place = some .directory := by
  rw [isDirectory_iff, status_eq_ok_iff]

/-- A file system after paths have been made in it: the entries are kept, and the
    new ones are directories that the paths lead to. -/
structure Grown (paths : List Path) (files reached : FileSystem) : Prop where
  /-- Paths start in the same directory. -/
  workingDirectory : reached.workingDirectory = files.workingDirectory
  /-- The same paths are too long. -/
  pathLimit : reached.pathLimit = files.pathLimit
  /-- Every entry is still there. -/
  kept : files.tree.PartOf reached.tree
  /-- Every new entry is a directory that one of the paths leads to. -/
  made : ∀ place entry, files.tree.get? place = none → reached.tree.get? place = some entry →
    entry = .directory ∧ ∃ path ∈ paths, reached.locate path = .ok place

namespace Grown

variable {paths more : List Path} {files reached further : FileSystem}

theorem refl (paths : List Path) (files : FileSystem) : Grown paths files files where
  workingDirectory := rfl
  pathLimit := rfl
  kept := Tree.PartOf.refl files.tree
  made := by
    intro place entry hnone hsome
    rw [hnone] at hsome
    simp only [reduceCtorEq] at hsome

/-- A path still leads where it led before. -/
theorem locate (h : Grown paths files reached) {path : Path} {place : Location}
    (hplace : files.locate path = .ok place) : reached.locate path = .ok place := by
  rw [locate_eq_ok_iff] at hplace ⊢
  refine ⟨(route_congr h.pathLimit path).trans hplace.1, ?_⟩
  rw [walkOf, h.workingDirectory]
  exact Tree.walk_of_partOf h.kept hplace.2

theorem trans (h : Grown paths files reached) (h' : Grown more reached further) :
    Grown (paths ++ more) files further where
  workingDirectory := h'.workingDirectory.trans h.workingDirectory
  pathLimit := h'.pathLimit.trans h.pathLimit
  kept := h.kept.trans h'.kept
  made := by
    intro place entry hnone hsome
    cases hmid : reached.tree.get? place with
    | none =>
      rcases h'.made place entry hmid hsome with ⟨hdir, path, hmem, hplace⟩
      exact ⟨hdir, path, List.mem_append_right paths hmem, hplace⟩
    | some middle =>
      rcases h.made place middle hnone hmid with ⟨hdir, path, hmem, hplace⟩
      -- Made by the first paths, and kept while the others were made.
      have hsame := h'.kept place middle hmid
      rw [hsome, Option.some.injEq] at hsame
      exact ⟨hsame.trans hdir, path, List.mem_append_left more hmem, h'.locate hplace⟩

theorem mono (h : Grown paths files reached) (hsub : ∀ path ∈ paths, path ∈ more) :
    Grown more files reached where
  workingDirectory := h.workingDirectory
  pathLimit := h.pathLimit
  kept := h.kept
  made := by
    intro place entry hnone hsome
    rcases h.made place entry hnone hsome with ⟨hdir, path, hmem, hplace⟩
    exact ⟨hdir, path, hsub path hmem, hplace⟩

end Grown

/-- What making a directory does: the path leads to a directory that was not there
    before. -/
theorem locate_of_makeDir {files made : FileSystem} {path : Path}
    (h : files.makeDir path = .ok made) :
    ∃ name directory, path.route.last? = some (.enter name) ∧
      files.tree.get? directory = some .directory ∧
      files.tree.get? (name :: directory) = none ∧
      made = files.withTree (files.tree.put (name :: directory) .directory) ∧
      made.tree.get? (name :: directory) = some .directory ∧
      made.walkOf path path.route.steps.dropLast = .ok directory ∧
      made.locate path = .ok (name :: directory) := by
  rcases (makeDir_eq_ok_iff files made path).mp h with
    ⟨route, directory, name, hroute, hfollow, hlast, hnone, rfl⟩
  have heq := ((route_eq_ok_iff files path route).mp hroute).2.2.2
  subst heq
  rcases (followToLast_eq_ok_iff files path directory).mp hfollow with ⟨hwalk, hdir⟩
  have hhold : files.tree.CanHold (name :: directory) := by
    refine ⟨hdir, ?_⟩
    rw [hnone]
    exact nofun
  have hnew := Tree.get?_put_self Entry.directory hhold
  -- The new entry was missing before, so it does not change the walk to its directory.
  have hstill := Tree.walk_of_partOf (Tree.partOf_put hnone Entry.directory) hwalk
  refine ⟨name, directory, hlast, hdir, hnone, rfl, hnew, hstill, ?_⟩
  rw [locate_eq_ok_iff]
  refine ⟨hroute, Tree.walk_toEnd_of_directory ?_ hnew⟩
  rw [Route.steps_eq_append hlast]
  exact Tree.walk_concat_enter hstill hnew nofun

theorem grown_makeDir {files made : FileSystem} {path : Path}
    (h : files.makeDir path = .ok made) : Grown [path] files made := by
  rcases locate_of_makeDir h with ⟨name, directory, _, _, hnone, rfl, hnew, _, hplace⟩
  refine ⟨rfl, rfl, Tree.partOf_put hnone _, fun place entry hbefore hafter => ?_⟩
  by_cases heq : place = name :: directory
  · subst heq
    exact ⟨Option.some.inj (hafter.symm.trans hnew), path, List.mem_singleton.mpr rfl, hplace⟩
  · have hsame := Tree.get?_put_of_ne files.tree Entry.directory heq
    rw [hbefore] at hsame
    exact absurd (hafter.symm.trans hsame) nofun

/-- The path ends in a name, and leads to a directory of that name that holds
    nothing. -/
def Fresh (files : FileSystem) (path : Path) : Prop :=
  ∃ name directory, path.route.last? = some (.enter name) ∧
    files.walkOf path path.route.steps.dropLast = .ok directory ∧
    files.locate path = .ok (name :: directory) ∧
    files.tree.get? (name :: directory) = some .directory ∧
    ∀ inner, files.tree.get? (inner :: name :: directory) = none

/-- A directory that has just been made is empty. -/
theorem fresh_of_makeDir {files made : FileSystem} {path : Path}
    (h : files.makeDir path = .ok made) : Fresh made path := by
  rcases locate_of_makeDir h with ⟨name, directory, hlast, _, hnone, rfl, hnew, hwalk, hplace⟩
  refine ⟨name, directory, hlast, hwalk, hplace, hnew, fun inner => ?_⟩
  have hsame := Tree.get?_put_of_ne files.tree Entry.directory
    (List.cons_ne_self inner (name :: directory))
  refine hsame.trans (Tree.get?_cons_eq_none ?_ inner)
  rw [hnone]
  exact nofun

/-- Making directories only adds directories, to which the paths then lead,
    whether or not all of them can be made. -/
theorem grown_makeEach (paths : List Path) (files : FileSystem) :
    Grown paths files (files.makeEach paths).2 := by
  induction paths with
  | nil => exact Grown.refl [] files
  | cons path passed ih =>
    have haccept : ∀ (reached : FileSystem) (error : FileError),
        (reached.acceptDir path error).2 = reached := by
      intro reached error
      unfold acceptDir
      split <;> rfl
    rw [makeEach]
    split
    · rename_i made hmade
      exact (grown_makeDir hmade).mono fun other hmem =>
        List.mem_singleton.mp hmem ▸ List.mem_cons_self
    · -- Something on the way is missing, so the other paths come first.
      split
      · rename_i error reached heach
        rw [heach] at ih
        exact ih.mono fun other hmem => List.mem_cons_of_mem path hmem
      · rename_i reached heach
        rw [heach] at ih
        have hpassed : Grown (path :: passed) files reached :=
          ih.mono fun other hmem => List.mem_cons_of_mem path hmem
        split
        · rename_i made hmade
          -- With the others there, the path itself can be made.
          refine (hpassed.trans (grown_makeDir hmade)).mono fun other hmem => ?_
          rcases List.mem_append.mp hmem with hin | hin
          · exact hin
          · exact List.mem_singleton.mp hin ▸ List.mem_cons_self
        · rename_i error hfail
          rw [haccept]
          exact hpassed
    · rename_i error _ hfail
      rw [haccept]
      exact Grown.refl (path :: passed) files

theorem acceptDir_eq_ok_iff (files reached : FileSystem) (path : Path) (error : FileError) :
    files.acceptDir path error = (.ok (), reached) ↔
      files.isDirectory path = true ∧ reached = files := by
  unfold acceptDir
  split
  · rename_i hdir
    simp only [Prod.mk.injEq, true_and, hdir]
    exact eq_comm
  · rename_i hdir
    simp only [Prod.mk.injEq, reduceCtorEq, false_and, hdir]

theorem isDirectory_of_fresh {files : FileSystem} {path : Path} (h : Fresh files path) :
    files.isDirectory path = true := by
  rcases h with ⟨name, directory, _, _, hplace, hdir, _⟩
  exact (isDirectory_iff_locate files path).mpr ⟨name :: directory, hplace, hdir⟩

/-- How making a directory can succeed: it is made at once or was there, or the
    other paths are made first and then it is made or has come within reach. -/
theorem makeEach_cons_eq_ok {files reached : FileSystem} {path : Path} {passed : List Path}
    (h : files.makeEach (path :: passed) = (.ok (), reached)) :
    files.makeDir path = .ok reached ∨ (files.isDirectory path = true ∧ reached = files) ∨
    ∃ middle, files.makeEach passed = (.ok (), middle) ∧
      (middle.makeDir path = .ok reached ∨
        (middle.isDirectory path = true ∧ reached = middle)) := by
  rw [makeEach] at h
  split at h
  · rename_i made hmade
    simp only [Prod.mk.injEq, true_and] at h
    exact Or.inl (h ▸ hmade)
  · split at h
    · simp only [Prod.mk.injEq, reduceCtorEq, false_and] at h
    · rename_i middle heach
      refine Or.inr (Or.inr ⟨middle, heach, ?_⟩)
      split at h
      · rename_i made hmade
        simp only [Prod.mk.injEq, true_and] at h
        exact Or.inl (h ▸ hmade)
      · exact Or.inr ((acceptDir_eq_ok_iff _ _ _ _).mp h)
  · exact Or.inr (Or.inl ((acceptDir_eq_ok_iff _ _ _ _).mp h))

/-- What has been made is there. -/
theorem isDirectory_of_makeEach {files reached : FileSystem} {path : Path} {passed : List Path}
    (h : files.makeEach (path :: passed) = (.ok (), reached)) :
    reached.isDirectory path = true := by
  rcases makeEach_cons_eq_ok h with
    hmade | ⟨hdir, rfl⟩ | ⟨middle, _, hmade | ⟨hdir, rfl⟩⟩
  · exact isDirectory_of_fresh (fresh_of_makeDir hmade)
  · exact hdir
  · exact isDirectory_of_fresh (fresh_of_makeDir hmade)
  · exact hdir

/-- A path that goes on from an empty directory leads nowhere. -/
theorem isDirectory_of_continues {files : FileSystem} {longer shorter : Path}
    (hpaths : longer.Continues shorter) (hstraight : longer.route.IsStraight)
    (hfresh : Fresh files shorter) : files.isDirectory longer = false := by
  rcases hpaths with ⟨hroot, before, step, after, hsteps, hnot, hbefore, _⟩
  rcases hfresh with ⟨last, outer, hlast, _, hplace, hdir, hempty⟩
  have hshorter := Tree.walk_steps_of_toEnd ((locate_eq_ok_iff files shorter _).mp hplace).2
  rcases Tree.walk_append_of_ok hshorter with ⟨left, hleft⟩
  -- The first step behind the empty directory that is not staying cannot be taken.
  have hblocked : ∀ place,
      files.tree.walk (left + 1) (last :: outer) (step :: after) ≠ .ok place := by
    intro place
    cases step with
    | stay => exact absurd rfl hnot
    | overlong => simp only [Tree.walk, Tree.advance, hdir, ne_eq, reduceCtorEq, not_false_eq_true]
    | enter name =>
      simp only [Tree.walk, Tree.advance, hdir, hempty name, ne_eq, reduceCtorEq,
        not_false_eq_true]
    | climb =>
      have hmem : Step.enter last ∈ shorter.route.steps ++ before :=
        List.mem_append_left before (List.mem_of_getLast? hlast)
      rw [Route.IsStraight, hsteps] at hstraight
      have hnot := (List.pairwise_append.mp hstraight).2.2 _ hmem _ List.mem_cons_self
      exact absurd rfl (hnot ⟨last, rfl⟩)
  refine Bool.eq_false_iff.mpr fun hlonger => ?_
  rcases (isDirectory_iff_locate files longer).mp hlonger with ⟨place, hlonger, _⟩
  have hwalk := Tree.walk_steps_of_toEnd ((locate_eq_ok_iff files longer place).mp hlonger).2
  have hstart : longer.route.start files.workingDirectory =
      shorter.route.start files.workingDirectory := by
    unfold Route.start
    rw [hroot]
  rw [hstart, hsteps, List.append_assoc, hleft, Tree.walk_stays hdir hbefore] at hwalk
  exact hblocked place hwalk

/-- Making a path that is straight: it led to a directory before, and nothing has
    changed, or it leads to an empty one now. -/
theorem fresh_of_makeEach {files reached : FileSystem} {path : Path} {passed : List Path}
    (hchain : (path :: passed).IsChain Path.Continues)
    (hstraight : path.route.IsStraight)
    (h : files.makeEach (path :: passed) = (.ok (), reached)) :
    (files.isDirectory path = true ∧ reached = files) ∨ Fresh reached path := by
  induction passed generalizing path reached with
  | nil =>
    rcases makeEach_cons_eq_ok h with hmade | hdir | ⟨middle, hmiddle, hlast⟩
    · exact Or.inr (fresh_of_makeDir hmade)
    · exact Or.inl hdir
    · rw [makeEach, Prod.mk.injEq] at hmiddle
      rcases hmiddle with ⟨_, rfl⟩
      rcases hlast with hmade | hdir
      · exact Or.inr (fresh_of_makeDir hmade)
      · exact Or.inl hdir
  | cons shorter passed ih =>
    rcases List.isChain_cons_cons.mp hchain with ⟨hcontinues, hrest⟩
    have hshorter : shorter.route.IsStraight := by
      rcases hcontinues with ⟨_, before, step, after, hsteps, _⟩
      rw [Route.IsStraight, hsteps, List.append_assoc] at hstraight
      exact (List.pairwise_append.mp hstraight).1
    rcases makeEach_cons_eq_ok h with hmade | hdir | ⟨middle, hmiddle, hlast⟩
    · exact Or.inr (fresh_of_makeDir hmade)
    · exact Or.inl hdir
    · rcases ih hrest hshorter hmiddle with ⟨_, rfl⟩ | hfresh
      · rcases hlast with hmade | hdir
        · exact Or.inr (fresh_of_makeDir hmade)
        · exact Or.inl hdir
      · rcases hlast with hmade | ⟨hdir, _⟩
        · exact Or.inr (fresh_of_makeDir hmade)
        · -- The shorter path leads to an empty directory, in which nothing can be found.
          rw [isDirectory_of_continues hcontinues hstraight hfresh] at hdir
          exact absurd hdir Bool.false_ne_true

end FileSystem

end TestWrappers
