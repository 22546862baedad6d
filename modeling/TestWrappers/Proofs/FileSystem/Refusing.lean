import TestWrappers.Proofs.FileSystem.Remaking
import TestWrappers.Proofs.FileSystem.Sparing

/-!
# Directories That Cannot Be Reset

What it means that a reset fails, on a way without links.

A directory can be replaced by an empty one, and so can a link that leads
somewhere. A file is not removed with a directory's removal, and a link that leads
nowhere is not seen by the question whether something is there, but is in the way
when the directory is made. In both cases nothing has changed. Otherwise the path
names no entry at all. Then nothing was removed, and only directories on the way
have been made, never the one that the path itself is for.

## Theorems

* `FileSystem.grown_of_makeEach_eq_error`: What is left of making directories.
* `FileSystem.resetFiles_of_file`, `FileSystem.resetFiles_behind_file`: A file is in the
  way of a directory.
* `FileSystem.resetFiles_eq_error`: Why a reset fails, and what it leaves.
* `FileSystem.confined_of_resetFiles`: What it leaves alone.
-/

namespace TestWrappers

namespace FileSystem

variable {files left : FileSystem} {path : Path} {name : Name} {cause : FileError}

theorem acceptDir_eq_error {reached : FileSystem} {error : FileError}
    (h : files.acceptDir path error = (.error cause, reached)) :
    cause = error ∧ reached = files := by
  unfold acceptDir at h
  split at h
  · simp only [Prod.mk.injEq, reduceCtorEq, false_and] at h
  · rcases Prod.mk.inj h with ⟨herror, hsame⟩
    exact ⟨(Except.error.inj herror).symm, hsame.symm⟩

/-- If a directory cannot be made, at most those on the way have been made. -/
theorem grown_of_makeEach_eq_error {passed : List Path}
    (h : files.makeEach (path :: passed) = (.error cause, left)) : Grown passed files left := by
  rw [makeEach] at h
  split at h
  · simp only [Prod.mk.injEq, reduceCtorEq, false_and] at h
  · have hgrown := grown_makeEach passed files
    split at h
    · rename_i error reached heach
      rw [heach] at hgrown
      exact (Prod.mk.inj h).2 ▸ hgrown
    · rename_i reached heach
      rw [heach] at hgrown
      split at h
      · simp only [Prod.mk.injEq, reduceCtorEq, false_and] at h
      · rw [(acceptDir_eq_error h).2]
        exact hgrown
  · rw [(acceptDir_eq_error h).2]
    exact Grown.refl passed files

theorem grown_of_makeDirs_eq_error (hpath : path.bytes ≠ [])
    (h : files.makeDirs path = (.error cause, left)) : Grown path.ancestors.tail files left := by
  rcases Path.ancestors_of_ne_nil hpath with ⟨_, _, _, hpaths⟩
  unfold makeDirs at h
  rw [hpaths] at h ⊢
  exact grown_of_makeEach_eq_error h

theorem route_of_locateEntry {entry : Location} (h : files.locateEntry path = .ok entry) :
    files.route path = .ok path.route := by
  cases hroute : files.route path with
  | error error =>
    simp only [locateEntry, bind, Except.bind, hroute] at h
    cases h
  | ok route =>
    rw [((route_eq_ok_iff files path route).mp hroute).2.2.2]

/-- The entry that a path names which ends in a name is there. -/
theorem exists_get?_of_locateEntry (hlast : path.route.last? = some (.enter name))
    (hslash : path.route.slash = false) {entry : Location}
    (h : files.locateEntry path = .ok entry) : ∃ found, files.tree.get? entry = some found := by
  simp only [locateEntry, bind, Except.bind, route_of_locateEntry h, hlast, hslash] at h
  split at h
  · cases h
  · split at h
    · rename_i hsome
      rw [← Except.ok.inj h]
      exact Option.isSome_iff_exists.mp hsome
    · cases h

/-- A path that names an entry leads to it, unless it is a link. -/
theorem pathExists_of_entry (hlast : path.route.last? = some (.enter name))
    (hslash : path.route.slash = false) {directory : Location} {entry : Entry}
    (hroute : files.route path = .ok path.route)
    (hwalk : files.walkOf path path.route.steps.dropLast = .ok directory)
    (hentry : files.tree.get? (name :: directory) = some entry)
    (hlink : ∀ target, entry ≠ .link target) : files.pathExists path = true := by
  refine (pathExists_iff files path).mpr
    ⟨name :: directory, (locate_eq_ok_iff files path _).mpr ⟨hroute, ?_⟩, ?_⟩
  · unfold Route.toEnd
    rw [hslash, if_neg Bool.false_ne_true, Route.steps_eq_append hlast]
    exact Tree.walk_concat_enter hwalk hentry hlink
  · rw [hentry]
    rfl

/-- What leads nowhere leads to no directory. -/
theorem isDirectory_eq_false (h : files.pathExists path = false) :
    files.isDirectory path = false := by
  refine Bool.eq_false_iff.mpr fun hthere => Bool.eq_false_iff.mp h ?_
  rcases (isDirectory_iff_locate files path).mp hthere with ⟨place, hplace, hentry⟩
  exact (pathExists_iff files path).mpr ⟨place, hplace, Option.isSome_of_eq_some hentry⟩

/-- A file is not removed, so a directory does not come in its place. -/
theorem resetFiles_of_file (hroute : files.route path = .ok path.route)
    (hlast : path.route.last? = some (.enter name)) (hslash : path.route.slash = false)
    (hclimb : Step.climb ∉ path.route.steps) (hlong : Step.overlong ∉ path.route.steps)
    {contents : List UInt8}
    (hfile : files.tree.get? (path.landing files.workingDirectory) = some (.file contents)) :
    Generation.resetFiles files path = (.error (.system .notDirectory), files) := by
  have hentry := locateEntry_of_get? hroute hlast hslash hclimb hlong hfile
  have hwalk := (followToLast_eq_ok_iff files path _).mp
    (follow_toLast_of_around hlast hclimb hlong (around_of_get? hlast hfile))
  have hexists : files.pathExists path = true := by
    rw [landing_eq_cons hlast] at hfile
    exact pathExists_of_entry hlast hslash hroute hwalk.1 hfile nofun
  have hremove : files.removeTree path = (.error (.system .notDirectory), files) := by
    unfold removeTree
    simp only [hentry, hfile]
  unfold Generation.resetFiles
  rw [hexists]
  simp only [↓reduceIte, hremove]

/-- No directory comes behind a file. -/
theorem resetFiles_behind_file (hroute : files.route path = .ok path.route) (hplain : path.IsPlain)
    (hlast : path.route.last? = some (.enter name)) (hslash : path.route.slash = false)
    (hstart : files.tree.get? (path.route.start files.workingDirectory) = some .directory)
    {outer : Location} {contents : List UInt8}
    (hfile : files.tree.get? outer = some (.file contents))
    (hin : Location.isWithin (path.landing files.workingDirectory).tail outer = true) :
    Generation.resetFiles files path = (.error (.system .notDirectory), files) := by
  rw [landing_of_last hlast, List.tail_cons] at hin
  have hsteps := Tree.walk_of_file maxLinks
    (fun step hmem => hplain.steps (List.dropLast_subset _ hmem)) hstart hfile hin
  have hmissing : files.pathExists path = false := by
    refine Bool.eq_false_iff.mpr fun hexists => ?_
    rcases (pathExists_iff files path).mp hexists with ⟨place, hplace, _⟩
    have hwalk := ((locate_eq_ok_iff files path place).mp hplace).2
    unfold Route.toEnd at hwalk
    rw [hslash, if_neg Bool.false_ne_true, Route.steps_eq_append hlast, walkOf, hsteps] at hwalk
    cases hwalk
  have hfollow : files.follow path.route path.route.toLast = .error (.system .notDirectory) :=
    (follow_eq_error_iff _ _ _ _).mpr ⟨.notDirectory, rfl, hsteps .stay⟩
  have hmake : files.makeDir path = .error (.system .notDirectory) := by
    simp only [makeDir, bind, Except.bind, hroute, hfollow]
  rcases Path.ancestors_of_ne_nil (Path.bytes_ne_nil_of_last hlast) with ⟨_, _, _, hpaths⟩
  unfold Generation.resetFiles makeDirs
  rw [hmissing, if_neg Bool.false_ne_true, hpaths, makeEach, hmake]
  simp only [acceptDir, isDirectory_eq_false hmissing, Bool.false_eq_true, ↓reduceIte]

/-- A link that leads nowhere is in the way of a directory. -/
theorem makeDirs_of_link (hroute : files.route path = .ok path.route)
    (hlast : path.route.last? = some (.enter name))
    (hclimb : Step.climb ∉ path.route.steps) (hlong : Step.overlong ∉ path.route.steps)
    {target : Path}
    (hlink : files.tree.get? (path.landing files.workingDirectory) = some (.link target))
    (hexists : files.pathExists path = false) :
    files.makeDirs path = (.error (.system .alreadyExists), files) := by
  have hfollow := follow_toLast_of_around hlast hclimb hlong (around_of_get? hlast hlink)
  have hmake : files.makeDir path = .error (.system .alreadyExists) := by
    rw [landing_eq_cons hlast] at hlink
    simp only [makeDir, bind, Except.bind, hroute, hfollow, hlast, hlink]
  rcases Path.ancestors_of_ne_nil (Path.bytes_ne_nil_of_last hlast) with ⟨_, _, _, hpaths⟩
  unfold makeDirs
  rw [hpaths, makeEach, hmake]
  simp only [acceptDir, isDirectory_eq_false hexists, Bool.false_eq_true, ↓reduceIte]

/-- A reset fails because a file is in the place of the directory, or a link that
    leads nowhere, or because the path names no entry. -/
theorem resetFiles_eq_error (hclimb : Step.climb ∉ path.route.steps)
    (hlast : path.route.last? = some (.enter name)) (hslash : path.route.slash = false)
    (hlinks : files.tree.Unlinked (path.landing files.workingDirectory).tail)
    (h : Generation.resetFiles files path = (.error cause, left)) :
    (∃ contents, files.tree.get? (path.landing files.workingDirectory) = some (.file contents) ∧
      cause = .system .notDirectory ∧ left = files) ∨
    (∃ target, files.tree.get? (path.landing files.workingDirectory) = some (.link target) ∧
      files.pathExists path = false ∧ cause = .system .alreadyExists ∧ left = files) ∨
    ((∀ entry, files.locateEntry path ≠ .ok entry) ∧ Grown path.ancestors.tail files left) := by
  cases hentry : files.locateEntry path with
  | error error =>
    refine Or.inr (Or.inr ⟨nofun, ?_⟩)
    unfold Generation.resetFiles at h
    split at h
    · have hremove : files.removeTree path = (.error error, files) := by
        unfold removeTree
        simp only [hentry]
      simp only [hremove] at h
      exact (Prod.mk.inj h).2 ▸ Grown.refl _ files
    · exact grown_of_makeDirs_eq_error (Path.bytes_ne_nil_of_last hlast) h
  | ok entry =>
    rcases locateEntry_eq_landing hclimb hlast hslash hlinks hentry with ⟨rfl, hwalk⟩
    have hroute := route_of_locateEntry hentry
    have hlong : Step.overlong ∉ path.route.steps := by
      rw [Route.steps_eq_append hlast]
      intro hmem
      rcases List.mem_append.mp hmem with hin | hin
      · exact Tree.overlong_notMem_of_walk hwalk hin
      · exact absurd (List.mem_singleton.mp hin) nofun
    rcases exists_get?_of_locateEntry hlast hslash hentry with ⟨found, hfound⟩
    cases found with
    | directory =>
      rcases resetFiles_of_directory hroute hlast hslash hclimb hlong hfound with ⟨after, hafter⟩
      rw [hafter] at h
      exact absurd (Prod.mk.inj h).1 nofun
    | file contents =>
      rw [resetFiles_of_file hroute hlast hslash hclimb hlong hfound] at h
      rcases Prod.mk.inj h with ⟨hcause, hleft⟩
      exact Or.inl ⟨contents, hfound, (Except.error.inj hcause).symm, hleft.symm⟩
    | link target =>
      cases hexists : files.pathExists path with
      | true =>
        rcases resetFiles_of_link hroute hlast hslash hclimb hlong hfound hexists with
          ⟨after, hafter⟩
        rw [hafter] at h
        exact absurd (Prod.mk.inj h).1 nofun
      | false =>
        unfold Generation.resetFiles at h
        rw [hexists, if_neg Bool.false_ne_true,
          makeDirs_of_link hroute hlast hclimb hlong hfound hexists] at h
        rcases Prod.mk.inj h with ⟨hcause, hleft⟩
        exact Or.inr (Or.inl ⟨target, hfound, rfl, (Except.error.inj hcause).symm, hleft.symm⟩)

/-- What has been made on the way of a path is around the directory in which the
    path lands. -/
theorem around_of_made (hclimb : Step.climb ∉ path.route.steps)
    (hlast : path.route.last? = some (.enter name))
    (hlinks : files.tree.Unlinked (path.landing files.workingDirectory).tail)
    (hgrown : Grown path.ancestors.tail files left) {place : Location} {entry : Entry}
    (hbefore : files.tree.get? place = none) (hafter : left.tree.get? place = some entry) :
    entry = .directory ∧
      Location.isWithin (path.landing files.workingDirectory).tail place = true := by
  rcases hgrown.made place entry hbefore hafter with ⟨rfl, way, hway, hplace⟩
  rcases Path.steps_of_mem_tail_ancestors hlast hway with ⟨⟨more, hsteps⟩, hroot⟩
  have hclimb' : Step.climb ∉ way.route.steps := fun hmem =>
    hclimb (List.dropLast_subset _ (hsteps ▸ List.mem_append_left more hmem))
  have hin : Location.isWithin (path.landing files.workingDirectory).tail
      (way.landing files.workingDirectory) = true := by
    rw [landing_of_last hlast, List.tail_cons, ← hsteps, Location.along_append]
    unfold Path.landing Route.start
    rw [hroot]
    exact Location.isWithin_along _ more
  have hlands := locate_eq_landing hclimb' (hgrown.workingDirectory ▸
    (hgrown.unlinked hlinks).outer hin) hplace
  rw [hgrown.workingDirectory] at hlands
  exact ⟨rfl, hlands ▸ hin⟩

/-- A reset that fails has made missing directories around where the path lands, if
    anything, and nothing has changed where it lands. -/
theorem confined_of_resetFiles (hclimb : Step.climb ∉ path.route.steps)
    (hlast : path.route.last? = some (.enter name)) (hslash : path.route.slash = false)
    (hlinks : files.tree.Unlinked (path.landing files.workingDirectory).tail)
    (h : Generation.resetFiles files path = (.error cause, left)) :
    Confined [path.landing files.workingDirectory] files left ∧
      ∀ inner : Location, inner.isWithin (path.landing files.workingDirectory) = true →
        left.tree.get? inner = files.tree.get? inner := by
  have hgrown : Grown path.ancestors.tail files left := by
    rcases resetFiles_eq_error hclimb hlast hslash hlinks h with
      ⟨_, _, _, hleft⟩ | ⟨_, _, _, _, hleft⟩ | ⟨_, hgrown⟩
    · rw [hleft]
      exact Grown.refl _ files
    · rw [hleft]
      exact Grown.refl _ files
    · exact hgrown
  have hplace : ∀ place, left.tree.get? place = files.tree.get? place ∨
      (files.tree.get? place = none ∧ left.tree.get? place = some .directory ∧
        Location.isWithin (path.landing files.workingDirectory).tail place = true) := by
    intro place
    cases hbefore : files.tree.get? place with
    | some entry => exact Or.inl (hgrown.kept place entry hbefore)
    | none =>
      cases hafter : left.tree.get? place with
      | none => exact Or.inl rfl
      | some entry =>
        rcases around_of_made hclimb hlast hlinks hgrown hbefore hafter with ⟨rfl, hin⟩
        exact Or.inr ⟨rfl, rfl, hin⟩
  refine ⟨⟨hgrown.workingDirectory, hgrown.pathLimit, fun other _ => ?_⟩, fun inner hinner => ?_⟩
  · refine (hplace other).imp_right fun hmade => ⟨hmade.1, hmade.2.1, _, List.mem_cons_self, ?_⟩
    exact Location.isWithin_trans (Location.isWithin_iff.mpr (List.tail_suffix _)) hmade.2.2
  · rcases hplace inner with hsame | ⟨_, _, haround⟩
    · exact hsame
    · rw [isWithin_landing_of_tail hlast haround] at hinner
      exact absurd hinner Bool.false_ne_true

end FileSystem

end TestWrappers
