import TestWrappers.Proofs.FileSystem.Making

/-!
# When Directories Can Be Emptied

Conditions under which a reset succeeds.

A directory that a path leads to without links can be removed: while it is
emptied it stays where it is, so its path still leads to it when it is removed
itself. A link that the path ends in can be removed too. In both cases the
directory can then be made, since everything around it is still there.

## Theorems

* `FileSystem.removeDir_of_empty`: An empty directory can be removed.
* `FileSystem.removeTree_of_directory`, `FileSystem.removeTree_of_link`: A
  directory or a link can be removed.
* `FileSystem.resetFiles_of_directory`, `FileSystem.resetFiles_of_link`: Each of
  them can be replaced by an empty directory.
* `FileSystem.resetFiles_of_open`: A directory can be emptied, or made.
-/

namespace TestWrappers

namespace FileSystem

variable {files : FileSystem} {path : Path} {name : Name}

/-- The directory around where a path lands is the one its last step is taken in. -/
theorem follow_toLast_of_around (hlast : path.route.last? = some (.enter name))
    (hclimb : Step.climb ∉ path.route.steps) (hlong : Step.overlong ∉ path.route.steps)
    (haround : files.tree.get? (path.landing files.workingDirectory).tail = some .directory) :
    files.follow path.route path.route.toLast =
      .ok (path.landing files.workingDirectory).tail := by
  rw [landing_of_last hlast, List.tail_cons] at haround ⊢
  refine (followToLast_eq_ok_iff _ _ _).mpr ⟨?_, haround⟩
  exact Tree.walk_along maxLinks (fun hmem => hclimb (List.dropLast_subset _ hmem))
    (fun hmem => hlong (List.dropLast_subset _ hmem)) haround

/-- A path lands in the directory around where it lands, under its last name. -/
theorem landing_eq_cons (hlast : path.route.last? = some (.enter name)) (directory : Location) :
    path.landing directory = name :: (path.landing directory).tail := by
  rw [landing_of_last hlast, List.tail_cons]

/-- Whatever is where a path lands has a directory around it. -/
theorem around_of_get? (hlast : path.route.last? = some (.enter name)) {entry : Entry}
    (h : files.tree.get? (path.landing files.workingDirectory) = some entry) :
    files.tree.get? (path.landing files.workingDirectory).tail = some .directory := by
  rw [landing_eq_cons hlast] at h
  exact Tree.get?_tail h

/-- Whatever is where a path lands is the entry that the path names. -/
theorem locateEntry_of_get? (hroute : files.route path = .ok path.route)
    (hlast : path.route.last? = some (.enter name)) (hslash : path.route.slash = false)
    (hclimb : Step.climb ∉ path.route.steps) (hlong : Step.overlong ∉ path.route.steps)
    {entry : Entry} (h : files.tree.get? (path.landing files.workingDirectory) = some entry) :
    files.locateEntry path = .ok (path.landing files.workingDirectory) := by
  have hfollow := follow_toLast_of_around hlast hclimb hlong (around_of_get? hlast h)
  rw [landing_eq_cons hlast] at h ⊢
  simp only [locateEntry, bind, Except.bind, hroute, hlast, hslash, hfollow, h,
    Option.isSome_some, ↓reduceIte]

/-- An empty directory that a path without links leads to can be removed. -/
theorem removeDir_of_empty (hroute : files.route path = .ok path.route)
    (hlast : path.route.last? = some (.enter name))
    (hclimb : Step.climb ∉ path.route.steps) (hlong : Step.overlong ∉ path.route.steps)
    (hdir : files.tree.get? (path.landing files.workingDirectory) = some .directory)
    (hempty : files.tree.names (path.landing files.workingDirectory) = []) :
    files.removeDir path = .ok (files.withTree
      (files.tree.remove (path.landing files.workingDirectory))) := by
  have hfollow := follow_toLast_of_around hlast hclimb hlong (around_of_get? hlast hdir)
  rw [landing_eq_cons hlast] at hdir hempty ⊢
  simp only [removeDir, bind, Except.bind, hroute, hfollow, hlast, hdir, hempty,
    List.isEmpty_nil, ↓reduceIte]

theorem get?_clear_self (tree : Tree) (place : Location) :
    (tree.clear place).get? place = tree.get? place := by
  rw [Tree.get?_clear, if_neg fun hboth => hboth.2 rfl]

theorem names_clear_self (tree : Tree) (place : Location) :
    (tree.clear place).names place = [] := by
  refine List.eq_nil_iff_forall_not_mem.mpr fun inner hinner => ?_
  have hsome := Tree.mem_names.mp hinner
  rw [Tree.get?_clear, if_pos ⟨Location.isWithin_cons inner (Location.isWithin_refl _),
    List.cons_ne_self inner _⟩] at hsome
  exact absurd hsome Bool.false_ne_true

/-- A directory that a path without links leads to can be removed with everything
    in it. -/
theorem removeTree_of_directory (hroute : files.route path = .ok path.route)
    (hlast : path.route.last? = some (.enter name)) (hslash : path.route.slash = false)
    (hclimb : Step.climb ∉ path.route.steps) (hlong : Step.overlong ∉ path.route.steps)
    (hdir : files.tree.get? (path.landing files.workingDirectory) = some .directory) :
    files.removeTree path = (.ok (), files.withTree
      ((files.tree.clear (path.landing files.workingDirectory)).remove
        (path.landing files.workingDirectory))) := by
  have hentry := locateEntry_of_get? hroute hlast hslash hclimb hlong hdir
  -- Emptying the directory keeps it where it is, so it is found again when it is
  -- removed itself.
  have hremove : (files.withTree
      (files.tree.clear (path.landing files.workingDirectory))).removeDir path =
        .ok (files.withTree ((files.tree.clear (path.landing files.workingDirectory)).remove
          (path.landing files.workingDirectory))) :=
    removeDir_of_empty hroute hlast hclimb hlong
      ((get?_clear_self files.tree _).trans hdir) (names_clear_self files.tree _)
  unfold removeTree
  simp only [hentry, hdir, hremove]
  rfl

/-- What is left when a directory has been removed was there before, and what is
    around the directory is left. -/
theorem get?_remove_clear (tree : Tree) {place : Location} (hne : place ≠ []) (other : Location) :
    ((tree.clear place).remove place).get? other =
      if other.isWithin place = true then none else tree.get? other := by
  rw [Tree.get?_remove _ other hne]
  split
  · rfl
  · rename_i hout
    rw [Tree.get?_clear, if_neg fun hboth => hout hboth.1]

/-- A link is removed without what it leads to. -/
theorem removeTree_of_link (hroute : files.route path = .ok path.route)
    (hlast : path.route.last? = some (.enter name)) (hslash : path.route.slash = false)
    (hclimb : Step.climb ∉ path.route.steps) (hlong : Step.overlong ∉ path.route.steps)
    {target : Path}
    (hlink : files.tree.get? (path.landing files.workingDirectory) = some (.link target)) :
    files.removeTree path = (.ok (), files.withTree
      (files.tree.remove (path.landing files.workingDirectory))) := by
  have hentry := locateEntry_of_get? hroute hlast hslash hclimb hlong hlink
  have hfollow := follow_toLast_of_around hlast hclimb hlong (around_of_get? hlast hlink)
  have hunlink : files.unlink path =
      .ok (files.withTree (files.tree.remove (path.landing files.workingDirectory))) := by
    rw [landing_eq_cons hlast] at hlink ⊢
    simp only [unlink, bind, Except.bind, hroute, hfollow, hlast, hlink, hslash,
      Bool.false_eq_true, ↓reduceIte]
  unfold removeTree
  simp only [hentry, hlink, hunlink]
  rfl

/-- A directory is made at once if there is one around it and nothing is in its
    place. -/
theorem makeDirs_of_absent (hroute : files.route path = .ok path.route)
    (hlast : path.route.last? = some (.enter name))
    (hclimb : Step.climb ∉ path.route.steps) (hlong : Step.overlong ∉ path.route.steps)
    (haround : files.tree.get? (path.landing files.workingDirectory).tail = some .directory)
    (hnone : files.tree.get? (path.landing files.workingDirectory) = none) :
    ∃ made, files.makeDirs path = (.ok (), made) := by
  have hfollow := follow_toLast_of_around hlast hclimb hlong haround
  rw [landing_eq_cons hlast] at hnone
  have hmake := (makeDir_eq_ok_iff files _ path).mpr
    ⟨_, _, _, hroute, hfollow, hlast, hnone, rfl⟩
  rcases Path.ancestors_of_ne_nil (Path.bytes_ne_nil_of_last hlast) with ⟨_, _, _, hpaths⟩
  unfold makeDirs
  rw [hpaths, makeEach, hmake]
  exact ⟨_, rfl⟩

/-- A path that leads somewhere can be reset if what it leads to can be removed, as
    the directory around it is left. -/
theorem resetFiles_of_removeTree (hroute : files.route path = .ok path.route)
    (hlast : path.route.last? = some (.enter name))
    (hclimb : Step.climb ∉ path.route.steps) (hlong : Step.overlong ∉ path.route.steps)
    (haround : files.tree.get? (path.landing files.workingDirectory).tail = some .directory)
    (hexists : files.pathExists path = true) {tree : Tree}
    (hremove : files.removeTree path = (.ok (), files.withTree tree))
    (hview : ∀ other, tree.get? other =
      if other.isWithin (path.landing files.workingDirectory) = true then none
      else files.tree.get? other) :
    ∃ after, Generation.resetFiles files path = (.ok (), after) := by
  unfold Generation.resetFiles
  rw [hexists]
  simp only [↓reduceIte, hremove]
  have hout := isWithin_landing_of_tail hlast
    (Location.isWithin_refl (path.landing files.workingDirectory).tail)
  refine makeDirs_of_absent hroute hlast hclimb hlong ?_ ?_
  · exact (hview _).trans ((if_neg (Bool.eq_false_iff.mp hout)).trans haround)
  · exact (hview _).trans (if_pos (Location.isWithin_refl _))

/-- A directory can be emptied. -/
theorem resetFiles_of_directory (hroute : files.route path = .ok path.route)
    (hlast : path.route.last? = some (.enter name)) (hslash : path.route.slash = false)
    (hclimb : Step.climb ∉ path.route.steps) (hlong : Step.overlong ∉ path.route.steps)
    (hdir : files.tree.get? (path.landing files.workingDirectory) = some .directory) :
    ∃ after, Generation.resetFiles files path = (.ok (), after) := by
  have hexists : files.pathExists path = true :=
    (pathExists_iff _ _).mpr ⟨_, locate_landing hroute hclimb hlong hdir, by rw [hdir]; rfl⟩
  have hne : path.landing files.workingDirectory ≠ [] := by
    rw [landing_eq_cons hlast]
    exact List.cons_ne_nil _ _
  exact resetFiles_of_removeTree hroute hlast hclimb hlong (around_of_get? hlast hdir) hexists
    (removeTree_of_directory hroute hlast hslash hclimb hlong hdir)
    (get?_remove_clear files.tree hne)

/-- A link that leads somewhere is replaced by a directory. -/
theorem resetFiles_of_link (hroute : files.route path = .ok path.route)
    (hlast : path.route.last? = some (.enter name)) (hslash : path.route.slash = false)
    (hclimb : Step.climb ∉ path.route.steps) (hlong : Step.overlong ∉ path.route.steps)
    {target : Path}
    (hlink : files.tree.get? (path.landing files.workingDirectory) = some (.link target))
    (hexists : files.pathExists path = true) :
    ∃ after, Generation.resetFiles files path = (.ok (), after) := by
  have hne : path.landing files.workingDirectory ≠ [] := by
    rw [landing_eq_cons hlast]
    exact List.cons_ne_nil _ _
  exact resetFiles_of_removeTree hroute hlast hclimb hlong (around_of_get? hlast hlink) hexists
    (removeTree_of_link hroute hlast hslash hclimb hlong hlink)
    fun other => Tree.get?_remove files.tree other hne

/-- A directory can be emptied, or made, if nothing but directories is at its place
    and around it. -/
theorem resetFiles_of_open (hlimit : files.pathLimit = none) (hplain : path.IsPlain) (name : Name)
    (hstart : files.tree.get? (path.route.start files.workingDirectory) = some .directory)
    (hopen : files.tree.Open ((path.join ⟨name.bytes⟩).landing files.workingDirectory)) :
    ∃ after, Generation.resetFiles files (path.join ⟨name.bytes⟩) = (.ok (), after) := by
  have hall := hplain.join name
  have hlast : (path.join ⟨name.bytes⟩).route.last? = some (.enter name) := by
    rw [Path.route_join_name]
    exact List.getLast?_concat
  have hslash : (path.join ⟨name.bytes⟩).route.slash = false := by
    rw [Path.route_join_name]
  have hroute := route_join_of_isPlain hlimit hplain name
  by_cases hnone : files.tree.get? ((path.join ⟨name.bytes⟩).landing files.workingDirectory) = none
  · -- Nothing is there, so nothing is removed.
    have hmissing : files.pathExists (path.join ⟨name.bytes⟩) = false := by
      refine Bool.eq_false_iff.mpr fun hexists => ?_
      rcases (pathExists_iff _ _).mp hexists with ⟨place, hplace, hsome⟩
      rw [locate_eq_landing hall.climb_notMem hopen.unlinked hplace, hnone] at hsome
      exact absurd hsome Bool.false_ne_true
    unfold Generation.resetFiles
    rw [hmissing]
    exact makeDirs_of_open hlimit hplain name hstart hopen
  · exact resetFiles_of_directory hroute hlast hslash hall.climb_notMem hall.overlong_notMem
      (hopen.eq_directory hnone)

end FileSystem

end TestWrappers
