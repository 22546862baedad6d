import TestWrappers.Proofs.FileSystem.Clearing

/-!
# What a Reset Spares

What a reset leaves alone, whether it succeeds or not.

A removal can stop in the middle, and so can the making of directories behind it.
Still only what the path names and what is inside of it can be gone, because
neither of them follows a link to it: a link that the path ends in is removed
itself, and a link in the directory is removed with the directory. What is made
on the way is in no one's place (`Grown`).

## Main definitions

* `FileSystem.Reduced`: At most what the path names has been removed.

## Theorems

* `FileSystem.reduced_removeTree`: What a removal spares.
* `FileSystem.resetFiles_frame`: What a reset spares.
* `FileSystem.pathLimit_resetFiles`: A reset does not change how long paths may
  be.
* `FileSystem.not_link_of_locate`: A path leads through links and not to them.
-/

namespace TestWrappers

namespace FileSystem

/-- A file system from which nothing has been removed but what a path leads to, if
    it leads anywhere, and not all of that need be gone. -/
structure Reduced (path : Path) (files left : FileSystem) : Prop where
  /-- Paths start in the same directory. -/
  workingDirectory : left.workingDirectory = files.workingDirectory
  /-- The same paths are too long. -/
  pathLimit : left.pathLimit = files.pathLimit
  /-- Nothing has been added or changed. -/
  part : left.tree.PartOf files.tree
  /-- Whatever was not to be taken is still there. -/
  kept : ∀ place, ¬ files.TakenBy path place → left.tree.get? place = files.tree.get? place

variable {files left : FileSystem} {path : Path}

theorem Reduced.refl (path : Path) (files : FileSystem) : Reduced path files files :=
  ⟨rfl, rfl, Tree.PartOf.refl files.tree, fun _ _ => rfl⟩

theorem Removed.reduced (h : Removed path files left) : Reduced path files left :=
  ⟨h.workingDirectory, h.pathLimit, h.part, h.kept⟩

/-- A directory that has been emptied, but is still there. -/
theorem reduced_clear {entry : Location} (hexists : files.pathExists path = true)
    (hentry : files.locateEntry path = .ok entry) :
    Reduced path files (files.withTree (files.tree.clear entry)) := by
  refine ⟨rfl, rfl, partOf_clear files.tree entry, fun place htaken => ?_⟩
  refine (Tree.get?_clear files.tree entry place).trans (if_neg fun hboth => ?_)
  exact htaken ⟨hexists, entry, hentry, hboth.1⟩

/-- A removal takes away nothing but what the path leads to, however it ends. -/
theorem reduced_removeTree (hexists : files.pathExists path = true) :
    Reduced path files (files.removeTree path).2 := by
  rcases hremove : files.removeTree path with ⟨error | ⟨⟩, left⟩
  · unfold removeTree at hremove
    split at hremove
    · rw [← (Prod.mk.inj hremove).2]
      exact Reduced.refl path files
    · rename_i entry hentry
      split at hremove
      · unfold attempt at hremove
        split at hremove
        · exact absurd (Prod.mk.inj hremove).1 nofun
        · rw [← (Prod.mk.inj hremove).2]
          exact Reduced.refl path files
      · dsimp only at hremove
        split at hremove
        · exact absurd (Prod.mk.inj hremove).1 nofun
        · unfold attempt at hremove
          split at hremove
          · exact absurd (Prod.mk.inj hremove).1 nofun
          · -- The directory could not be removed after it was emptied.
            rw [← (Prod.mk.inj hremove).2]
            exact reduced_clear hexists hentry
      · rw [← (Prod.mk.inj hremove).2]
        exact Reduced.refl path files
  · exact (removed_of_removeTree hexists hremove).reduced

/-- A reset removes nothing but what the path leads to, and adds nothing but
    directories that the path and those on its way lead to, however it ends. -/
theorem resetFiles_frame (files : FileSystem) (path : Path) :
    ∃ left, Reduced path files left ∧
      Grown path.ancestors left (Generation.resetFiles files path).2 := by
  unfold Generation.resetFiles
  split
  · rename_i hexists
    have hreduced := reduced_removeTree hexists
    rcases hremove : files.removeTree path with ⟨error | ⟨⟩, left⟩
    · rw [hremove] at hreduced
      exact ⟨left, hreduced, Grown.refl _ left⟩
    · rw [hremove] at hreduced
      exact ⟨left, hreduced, grown_makeEach path.ancestors left⟩
  · exact ⟨files, Reduced.refl path files, grown_makeEach path.ancestors files⟩

theorem pathLimit_resetFiles (files : FileSystem) (path : Path) :
    (Generation.resetFiles files path).2.pathLimit = files.pathLimit := by
  rcases resetFiles_frame files path with ⟨left, hreduced, hgrown⟩
  exact hgrown.pathLimit.trans hreduced.pathLimit

/-- A path that ends in a name leads to no link, but through it. -/
theorem not_link_of_locate {name : Name} {there : Location}
    (hlast : path.route.last? = some (.enter name)) (h : files.locate path = .ok there)
    (target : Path) : files.tree.get? there ≠ some (.link target) := by
  have hwalk := Tree.walk_steps_of_toEnd ((locate_eq_ok_iff files path there).mp h).2
  by_cases hstart : files.tree.get? (path.route.start files.workingDirectory) = some .directory
  · exact Tree.not_link_of_walk (hstart ▸ nofun) hwalk target
  · -- No step can be taken from anything else.
    rw [Route.steps_eq_append hlast] at hwalk
    rcases List.exists_cons_of_ne_nil (List.concat_ne_nil (Step.enter name)
      path.route.steps.dropLast) with ⟨step, steps, hsteps⟩
    rw [hsteps] at hwalk
    rcases Tree.walk_of_not_directory hstart maxLinks step steps with ⟨errno, herror⟩
    exact absurd (hwalk.symm.trans herror) nofun

end FileSystem

end TestWrappers
