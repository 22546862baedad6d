import TestWrappers.Generation.Run
import TestWrappers.Proofs.FileSystem.Building

/-!
# Clearing Directories

What is left of a directory that is removed with everything in it and made anew.

The path is looked up again and again on the way: to see whether anything is
there, to remove it, to remove the directory once it is empty, and to make the
directory. Each look goes through a tree that the step before has changed. Two
facts carry through all of them. Removing leaves everything outside the removed
entry as it was, and once it has succeeded the path leads nowhere
(`removed_of_removeTree`). Making directories then only adds to that.

## Main definitions

* `FileSystem.TakenBy`: What removing the directory of a path takes away.
* `FileSystem.Removed`: A file system without what a path leads to.

## Theorems

* `FileSystem.removed_of_removeTree`: What removing leaves.
* `FileSystem.resetFiles_eq_ok`: The two stages of clearing a directory.
-/

namespace TestWrappers

namespace FileSystem

/-- The location is in what is removed with the directory of a path: the path
    leads somewhere, and the location is the entry that it names or inside it. -/
def TakenBy (files : FileSystem) (path : Path) (place : Location) : Prop :=
  files.pathExists path = true ∧
    ∃ entry, files.locateEntry path = .ok entry ∧ place.isWithin entry = true

/-- A file system from which what a path leads to has been removed, if it leads
    anywhere. The entry itself may still stand there, but nothing inside it. -/
structure Removed (path : Path) (files left : FileSystem) : Prop where
  /-- Paths start in the same directory. -/
  workingDirectory : left.workingDirectory = files.workingDirectory
  /-- The same paths are too long. -/
  pathLimit : left.pathLimit = files.pathLimit
  /-- Nothing has been added or changed. -/
  part : left.tree.PartOf files.tree
  /-- Whatever was not taken is still there. -/
  kept : ∀ place, ¬ files.TakenBy path place → left.tree.get? place = files.tree.get? place
  /-- Nothing is left inside of what was taken. -/
  emptied : ∀ entry place, files.pathExists path = true → files.locateEntry path = .ok entry →
    place.isWithin entry = true → place ≠ entry → left.tree.get? place = none
  /-- The path leads nowhere. -/
  gone : left.pathExists path = false

theorem pathExists_iff (files : FileSystem) (path : Path) :
    files.pathExists path = true ↔
      ∃ place, files.locate path = .ok place ∧ (files.tree.get? place).isSome = true := by
  unfold pathExists
  constructor
  · intro h
    cases hstatus : files.status path with
    | error error =>
      rw [hstatus] at h
      exact absurd h Bool.false_ne_true
    | ok entry =>
      rcases (status_eq_ok_iff files path entry).mp hstatus with ⟨place, hplace, hentry⟩
      exact ⟨place, hplace, by rw [hentry]; rfl⟩
  · intro h
    rcases h with ⟨place, hplace, hsome⟩
    rcases Option.isSome_iff_exists.mp hsome with ⟨entry, hentry⟩
    rw [(status_eq_ok_iff files path entry).mpr ⟨place, hplace, hentry⟩]
    rfl

/-- A path leads nowhere if nothing has the name that it ends in. -/
theorem pathExists_eq_false_of_absent {files : FileSystem} {path : Path} {name : Name}
    (hlast : path.route.last? = some (.enter name))
    (h : ∀ directory, files.walkOf path path.route.steps.dropLast = .ok directory →
      files.tree.get? (name :: directory) = none) : files.pathExists path = false := by
  refine Bool.eq_false_iff.mpr fun hexists => ?_
  rcases (pathExists_iff files path).mp hexists with ⟨place, hplace, _⟩
  have hsteps := Tree.walk_steps_of_toEnd ((locate_eq_ok_iff files path place).mp hplace).2
  rw [Route.steps_eq_append hlast] at hsteps
  cases hwalk : files.walkOf path path.route.steps.dropLast with
  | error errno =>
    rw [Tree.walk_append_of_error [.enter name] hwalk] at hsteps
    exact absurd hsteps nofun
  | ok directory =>
    by_cases hdir : files.tree.get? directory = some .directory
    · rw [Tree.walk_append_absent hwalk hdir (h directory hwalk) []] at hsteps
      exact absurd hsteps nofun
    · rcases Tree.walk_append_of_ok hwalk with ⟨left, hleft⟩
      rcases Tree.walk_of_not_directory hdir left (.enter name) [] with ⟨errno, herror⟩
      rw [hleft, herror] at hsteps
      exact absurd hsteps nofun

/-- A path leads nowhere if the directory of its last step is not found. -/
theorem pathExists_eq_false_of_follow {files : FileSystem} {path : Path}
    (h : files.follow path.route path.route.toLast = .error (.system .noEntry)) :
    files.pathExists path = false := by
  refine Bool.eq_false_iff.mpr fun hexists => ?_
  rcases (pathExists_iff files path).mp hexists with ⟨place, hplace, hsome⟩
  have hsteps := Tree.walk_steps_of_toEnd ((locate_eq_ok_iff files path place).mp hplace).2
  rcases (follow_eq_error_iff _ _ _ _).mp h with ⟨errno, herrno, hlast⟩
  rw [FileError.system.injEq] at herrno
  subst herrno
  rw [Route.toLast] at hlast
  cases hdrop : files.walkOf path path.route.steps.dropLast with
  | error errno =>
    -- The walk to the directory is the beginning of the walk to the end.
    rcases List.dropLast_prefix path.route.steps with ⟨last, happend⟩
    rw [← happend, Tree.walk_append_of_error last hdrop] at hsteps
    exact absurd hsteps nofun
  | ok directory =>
    rcases Tree.walk_append_of_ok hdrop with ⟨left, hleft⟩
    rw [hleft] at hlast
    by_cases hdir : files.tree.get? directory = some .directory
    · simp only [Tree.walk, Tree.advance, hdir, reduceCtorEq] at hlast
    · cases hlast? : path.route.last? with
      | some step =>
        rcases Tree.walk_of_not_directory hdir left step [] with ⟨errno, herror⟩
        rw [Route.steps_eq_append hlast?, hleft, herror] at hsteps
        exact absurd hsteps nofun
      | none =>
        -- Without a step the path leads to where it starts, and nothing is there.
        have hnil : path.route.steps = [] := List.getLast?_eq_none_iff.mp hlast?
        rw [hnil, List.dropLast_nil] at hdrop
        rw [hnil] at hsteps
        have heq : directory = place := Except.ok.inj (hdrop.symm.trans hsteps)
        subst heq
        rcases Option.isSome_iff_exists.mp hsome with ⟨entry, hentry⟩
        cases entry with
        | directory => exact absurd hentry hdir
        | file contents =>
          simp only [Tree.walk, Tree.advance, hentry, Except.error.injEq, reduceCtorEq] at hlast
        | link target =>
          simp only [Tree.walk, Tree.advance, hentry, Except.error.injEq, reduceCtorEq] at hlast

/-- The directory in which a change to the entry of a path is made. -/
theorem follow_toLast_of_route {files : FileSystem} {path : Path} {route : Route}
    {directory : Location} (hroute : files.route path = .ok route)
    (hfollow : files.follow route route.toLast = .ok directory) :
    path.route = route ∧ files.walkOf path path.route.steps.dropLast = .ok directory ∧
      files.tree.get? directory = some .directory := by
  have heq := ((route_eq_ok_iff files path route).mp hroute).2.2.2
  subst heq
  exact ⟨rfl, (followToLast_eq_ok_iff files path directory).mp hfollow⟩

theorem unlink_eq_ok {files removed : FileSystem} {path : Path}
    (h : files.unlink path = .ok removed) :
    ∃ name directory, path.route.last? = some (.enter name) ∧ path.route.slash = false ∧
      files.walkOf path path.route.steps.dropLast = .ok directory ∧
      files.tree.get? directory = some .directory ∧
      removed = files.withTree (files.tree.remove (name :: directory)) := by
  simp only [unlink, bind, Except.bind] at h
  split at h
  · exact absurd h nofun
  · rename_i route hroute
    split at h
    · exact absurd h nofun
    · rename_i directory hfollow
      rcases follow_toLast_of_route hroute hfollow with ⟨rfl, hwalk, hdir⟩
      split at h
      · rename_i name hlast
        split at h
        · exact absurd h nofun
        · exact absurd h nofun
        · split at h
          · exact absurd h nofun
          · rename_i hslash
            simp only [Except.ok.injEq] at h
            exact ⟨name, directory, hlast, Bool.eq_false_iff.mpr hslash, hwalk, hdir, h.symm⟩
      -- Only a name can be unlinked, and no other last step.
      all_goals exact absurd h nofun

theorem removeDir_eq_ok {files removed : FileSystem} {path : Path}
    (h : files.removeDir path = .ok removed) :
    ∃ name directory, path.route.last? = some (.enter name) ∧
      files.walkOf path path.route.steps.dropLast = .ok directory ∧
      files.tree.get? (name :: directory) = some .directory ∧
      removed = files.withTree (files.tree.remove (name :: directory)) := by
  simp only [removeDir, bind, Except.bind] at h
  split at h
  · exact absurd h nofun
  · rename_i route hroute
    split at h
    · exact absurd h nofun
    · rename_i directory hfollow
      rcases follow_toLast_of_route hroute hfollow with ⟨rfl, hwalk, hdir⟩
      split at h
      · rename_i name hlast
        split at h
        · exact absurd h nofun
        · rename_i hentry
          split at h
          · simp only [Except.ok.injEq] at h
            exact ⟨name, directory, hlast, hwalk, hentry, h.symm⟩
          · exact absurd h nofun
        · exact absurd h nofun
      all_goals exact absurd h nofun

/-- A directory is not found for removal only if its path leads nowhere. -/
theorem pathExists_of_removeDir_noEntry {files : FileSystem} {path : Path}
    (h : files.removeDir path = .error (.system .noEntry)) : files.pathExists path = false := by
  simp only [removeDir, bind, Except.bind] at h
  split at h
  · rename_i error hroute
    refine Bool.eq_false_iff.mpr fun hexists => ?_
    rcases (pathExists_iff files path).mp hexists with ⟨place, hplace, _⟩
    -- A path that leads somewhere can be looked up.
    rw [((locate_eq_ok_iff files path place).mp hplace).1] at hroute
    exact absurd hroute nofun
  · rename_i route hroute
    have heq := ((route_eq_ok_iff files path route).mp hroute).2.2.2
    subst heq
    split at h
    · rename_i error hfollow
      rw [Except.error.injEq] at h
      exact pathExists_eq_false_of_follow (h ▸ hfollow)
    · rename_i directory hfollow
      rcases (followToLast_eq_ok_iff files path directory).mp hfollow with ⟨hwalk, hdir⟩
      split at h
      · rename_i name hlast
        split at h
        · rename_i hnone
          refine pathExists_eq_false_of_absent hlast fun other hother => ?_
          rw [← Except.ok.inj (hwalk.symm.trans hother)]
          exact hnone
        · split at h
          · exact absurd h nofun
          · simp only [Except.error.injEq, FileError.system.injEq, reduceCtorEq] at h
        · simp only [Except.error.injEq, FileError.system.injEq, reduceCtorEq] at h
      all_goals simp only [Except.error.injEq, FileError.system.injEq, reduceCtorEq] at h

theorem locateEntry_eq_ok {files : FileSystem} {path : Path} {entry : Location}
    (h : files.locateEntry path = .ok entry) :
    (∃ name directory, path.route.last? = some (.enter name) ∧
      files.walkOf path path.route.steps.dropLast = .ok directory ∧
      entry = name :: directory) ∨
    (files.walkOf path path.route.steps = .ok entry ∧
      ∀ name, path.route.last? = some (.enter name) → path.route.slash = true) := by
  simp only [locateEntry, bind, Except.bind] at h
  split at h
  · exact absurd h nofun
  · rename_i route hroute
    have heq := ((route_eq_ok_iff files path route).mp hroute).2.2.2
    subst heq
    split at h
    · rename_i name hlast hslash
      split at h
      · exact absurd h nofun
      · rename_i directory hfollow
        split at h
        · simp only [Except.ok.injEq] at h
          exact Or.inl ⟨name, directory, hlast,
            ((followToLast_eq_ok_iff files path directory).mp hfollow).1, h.symm⟩
        · exact absurd h nofun
    · rename_i hother
      refine Or.inr ⟨Tree.walk_steps_of_toEnd ((follow_eq_ok_iff _ _ _ _).mp h), ?_⟩
      intro name hlast
      by_cases hslash : path.route.slash = true
      · exact hslash
      · exact absurd (Bool.eq_false_iff.mpr hslash) (hother name hlast)

/-- The entry that a path names is the one a change to it is made at. -/
theorem eq_of_locateEntry {files : FileSystem} {path : Path} {entry directory : Location}
    {name : Name} (h : files.locateEntry path = .ok entry)
    (hlast : path.route.last? = some (.enter name))
    (hwalk : files.walkOf path path.route.steps.dropLast = .ok directory)
    (hlink : path.route.slash = true → files.tree.get? (name :: directory) = some .directory) :
    entry = name :: directory := by
  rcases locateEntry_eq_ok h with ⟨name', directory', hlast', hwalk', rfl⟩ | ⟨hsteps, hslash⟩
  · rw [hlast, Option.some.injEq, Step.enter.injEq] at hlast'
    rw [hwalk, Except.ok.injEq] at hwalk'
    rw [hlast', hwalk']
  · rw [Route.steps_eq_append hlast] at hsteps
    -- A slash at the end follows the entry, which is no link.
    have hreach := Tree.walk_concat_enter hwalk (hlink (hslash name hlast)) nofun
    exact Except.ok.inj (hsteps.symm.trans hreach)

/-- A file system without an entry and what is inside it, or only without what is
    inside it. -/
theorem removed_of_get? {files left : FileSystem} {path : Path} {entry : Location}
    (hexists : files.pathExists path = true) (hentry : files.locateEntry path = .ok entry)
    (hdirectory : left.workingDirectory = files.workingDirectory)
    (hlimit : left.pathLimit = files.pathLimit)
    (houtside : ∀ place, place.isWithin entry = false →
      left.tree.get? place = files.tree.get? place)
    (hinside : ∀ place, place.isWithin entry = true → place ≠ entry →
      left.tree.get? place = none)
    (hself : left.tree.get? entry = none ∨ left.tree.get? entry = files.tree.get? entry)
    (hgone : left.pathExists path = false) : Removed path files left where
  workingDirectory := hdirectory
  pathLimit := hlimit
  part := by
    intro place found hfound
    by_cases hin : place.isWithin entry = true
    · by_cases heq : place = entry
      · subst heq
        rcases hself with hnone | hsame
        · rw [hnone] at hfound
          exact absurd hfound nofun
        · exact hsame ▸ hfound
      · rw [hinside place hin heq] at hfound
        exact absurd hfound nofun
    · exact houtside place (Bool.eq_false_iff.mpr hin) ▸ hfound
  kept := by
    intro place htaken
    refine houtside place (Bool.eq_false_iff.mpr fun hin => ?_)
    exact htaken ⟨hexists, entry, hentry, hin⟩
  emptied := by
    intro other place _ hother hin hne
    rw [hentry, Except.ok.injEq] at hother
    subst hother
    exact hinside place hin hne
  gone := hgone

/-- An entry has been removed with everything inside it. -/
theorem removed_of_remove {files : FileSystem} {path : Path} {name : Name}
    {directory : Location} {tree : Tree} (hexists : files.pathExists path = true)
    (hentry : files.locateEntry path = .ok (name :: directory))
    (hlast : path.route.last? = some (.enter name))
    (hwalk : files.walkOf path path.route.steps.dropLast = .ok directory)
    (hview : ∀ place, tree.get? place =
      if place.isWithin (name :: directory) = true then none else files.tree.get? place) :
    Removed path files (files.withTree tree) := by
  have hself : tree.get? (name :: directory) = none := by
    rw [hview, if_pos (Location.isWithin_refl _)]
  have hpart : tree.PartOf files.tree := by
    intro place found hfound
    rw [hview] at hfound
    split at hfound
    · exact absurd hfound nofun
    · exact hfound
  refine removed_of_get? hexists hentry rfl rfl (fun place hout => ?_) (fun place hin _ => ?_)
    (Or.inl hself) ?_
  · exact (hview place).trans (by rw [hout, if_neg Bool.false_ne_true])
  · exact (hview place).trans (if_pos hin)
  · -- The way to the entry leads where it led, if it still leads anywhere.
    refine pathExists_eq_false_of_absent hlast fun other hother => ?_
    have hsame := Tree.walk_of_partOf hpart hother
    rw [← Except.ok.inj (Eq.trans hwalk.symm hsame)]
    exact hself

-- A link is removed by itself, and nothing can be inside it.
theorem removed_of_unlink {files left : FileSystem} {path : Path} {entry : Location}
    (hexists : files.pathExists path = true) (hentry : files.locateEntry path = .ok entry)
    (h : files.unlink path = .ok left) : Removed path files left := by
  rcases unlink_eq_ok h with ⟨name, directory, hlast, hslash, hwalk, _, rfl⟩
  have heq := eq_of_locateEntry hentry hlast hwalk fun htrue => by
    rw [hslash] at htrue
    exact absurd htrue Bool.false_ne_true
  subst heq
  exact removed_of_remove hexists hentry hlast hwalk fun place =>
    Tree.get?_remove files.tree place (List.cons_ne_nil name directory)

theorem partOf_clear (tree : Tree) (entry : Location) : (tree.clear entry).PartOf tree := by
  intro place found hfound
  rw [Tree.get?_clear] at hfound
  split at hfound
  · exact absurd hfound nofun
  · exact hfound

-- The emptied directory stays if the path leads nowhere any more.
theorem removed_of_clear {files : FileSystem} {path : Path} {entry : Location}
    (hexists : files.pathExists path = true) (hentry : files.locateEntry path = .ok entry)
    (hgone : (files.withTree (files.tree.clear entry)).pathExists path = false) :
    Removed path files (files.withTree (files.tree.clear entry)) := by
  have hview : ∀ place, (files.tree.clear entry).get? place = _ := Tree.get?_clear files.tree entry
  refine removed_of_get? hexists hentry rfl rfl (fun place hout => ?_)
    (fun place hin hne => ?_) (Or.inr ?_) hgone
  · exact (hview place).trans (if_neg fun hboth => Bool.eq_false_iff.mp hout hboth.1)
  · exact (hview place).trans (if_pos ⟨hin, hne⟩)
  · exact (hview entry).trans (if_neg fun hboth => hboth.2 rfl)

-- Otherwise it is removed once it is empty, and it is still where it was.
theorem removed_of_removeDir {files left : FileSystem} {path : Path} {entry : Location}
    (hexists : files.pathExists path = true) (hentry : files.locateEntry path = .ok entry)
    (h : (files.withTree (files.tree.clear entry)).removeDir path = .ok left) :
    Removed path files left := by
  have hpart := partOf_clear files.tree entry
  rcases removeDir_eq_ok h with ⟨name, directory, hlast, hwalk, hstands, rfl⟩
  have hwalk' : files.walkOf path path.route.steps.dropLast = .ok directory :=
    Tree.walk_of_partOf hpart hwalk
  have heq := eq_of_locateEntry hentry hlast hwalk' fun _ =>
    hpart (name :: directory) .directory hstands
  subst heq
  refine removed_of_remove hexists hentry hlast hwalk' fun place => ?_
  refine (Tree.get?_remove _ place (List.cons_ne_nil name directory)).trans ?_
  split
  · rfl
  · rename_i hout
    exact (Tree.get?_clear files.tree _ place).trans (if_neg fun hboth => hout hboth.1)

/-- What removing a directory or a link leaves, if it succeeds. -/
theorem removed_of_removeTree {files left : FileSystem} {path : Path}
    (hexists : files.pathExists path = true) (h : files.removeTree path = (.ok (), left)) :
    Removed path files left := by
  unfold removeTree at h
  split at h
  · simp only [Prod.mk.injEq, reduceCtorEq, false_and] at h
  · rename_i entry hentry
    split at h
    · rename_i target hlink
      unfold attempt at h
      split at h
      · rename_i removed hremoved
        simp only [Prod.mk.injEq, true_and] at h
        subst h
        -- A link goes without what it leads to.
        exact removed_of_unlink hexists hentry hremoved
      · simp only [Prod.mk.injEq, reduceCtorEq, false_and] at h
    · dsimp only at h
      split at h
      · -- A directory that is not found after it was emptied counts as removed.
        rename_i hnone
        simp only [Prod.mk.injEq, true_and] at h
        subst h
        exact removed_of_clear hexists hentry (pathExists_of_removeDir_noEntry hnone)
      · unfold attempt at h
        split at h
        · rename_i removed hremoved
          simp only [Prod.mk.injEq, true_and] at h
          subst h
          exact removed_of_removeDir hexists hentry hremoved
        · simp only [Prod.mk.injEq, reduceCtorEq, false_and] at h
    · simp only [Prod.mk.injEq, reduceCtorEq, false_and] at h

/-- The two stages of clearing a directory. What the path leads to is removed, if
    it leads anywhere, and then the path is made. -/
theorem resetFiles_eq_ok {files after : FileSystem} {path : Path}
    (h : Generation.resetFiles files path = (.ok (), after)) :
    ∃ left, Removed path files left ∧ left.makeDirs path = (.ok (), after) := by
  unfold Generation.resetFiles at h
  split at h
  · rename_i hexists
    split at h
    · rename_i left hremove
      exact ⟨left, removed_of_removeTree hexists hremove, h⟩
    · simp only [Prod.mk.injEq, reduceCtorEq, false_and] at h
  · rename_i hmissing
    refine ⟨files, ⟨rfl, rfl, Tree.PartOf.refl files.tree, fun _ _ => rfl, ?_,
      Bool.eq_false_iff.mpr hmissing⟩, h⟩
    intro entry place hexists
    exact absurd hexists hmissing

theorem grown_of_makeDirs {left after : FileSystem} {path : Path}
    (h : left.makeDirs path = (.ok (), after)) : Grown path.ancestors left after := by
  have hgrown := grown_makeEach path.ancestors left
  unfold makeDirs at h
  rw [h] at hgrown
  exact hgrown

theorem makeEach_ancestors {left after : FileSystem} {path : Path}
    (h : left.makeDirs path = (.ok (), after)) (hpath : path.bytes ≠ []) :
    ∃ passed, path.ancestors = path :: passed ∧
      left.makeEach (path :: passed) = (.ok (), after) := by
  rcases Path.ancestors_of_ne_nil hpath with ⟨first, segments, _, hancestors⟩
  refine ⟨_, hancestors, ?_⟩
  rw [← hancestors]
  exact h

/-- A path with a straight route leads to an empty directory once it has been
    reset. -/
theorem fresh_of_reset {files left after : FileSystem} {path : Path}
    (hremoved : Removed path files left)
    (hmake : left.makeDirs path = (.ok (), after)) (hpath : path.bytes ≠ [])
    (hstraight : path.route.IsStraight) : after.Fresh path := by
  rcases makeEach_ancestors hmake hpath with ⟨passed, hancestors, heach⟩
  have hchain := Path.isChain_ancestors path
  rw [hancestors] at hchain
  rcases fresh_of_makeEach hchain hstraight heach with ⟨hdir, _⟩ | hfresh
  · -- It cannot have been there, since nothing was there after the removal.
    rcases (isDirectory_iff_locate left path).mp hdir with ⟨place, hplace, hentry⟩
    have hexists := (pathExists_iff left path).mpr ⟨place, hplace, by rw [hentry]; rfl⟩
    rw [hremoved.gone] at hexists
    exact absurd hexists Bool.false_ne_true
  · exact hfresh

end FileSystem

end TestWrappers
