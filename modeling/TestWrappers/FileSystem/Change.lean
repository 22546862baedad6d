import TestWrappers.FileSystem

/-!
# Changes of a File System

Making, removing and writing entries, one at a time.

Each of these changes happens as a whole or not at all, so the outcome is either
the new file system or the error. All but writing act on the entry that the path
names: they follow the steps up to the last one, and if that step is a name they
look it up without following a link. A path whose last step is not a name names
no entry that could be made or removed, and each change has its own error for
it.

Writing follows links in the last place too, and makes the file if nothing is
where the path leads.

## Main definitions

* `FileSystem.makeDir`, `FileSystem.makeLink`: Make an entry.
* `FileSystem.removeDir`, `FileSystem.unlink`: Remove an entry.
* `FileSystem.write`: Write a file.

## Theorems

* `FileSystem.makeDir_eq_ok_iff`: When a directory is made, and what changes.
* `FileSystem.write_eq_ok_iff`: When a file is written, and what changes.
-/

namespace TestWrappers

namespace FileSystem

/-- The same file system with other entries. -/
def withTree (files : FileSystem) (tree : Tree) : FileSystem := { files with tree := tree }

/-- Make an empty directory. -/
def makeDir (files : FileSystem) (path : Path) : Except FileError FileSystem := do
  let route ← files.route path
  let directory ← files.follow route route.toLast
  match route.last? with
  | some (.enter name) =>
    match files.tree.get? (name :: directory) with
    | none => .ok (files.withTree (files.tree.put (name :: directory) .directory))
    | some _ => .error (.system .alreadyExists)
  | some .overlong => .error (.system .nameTooLong)
  | some .stay | some .climb | none => .error (.system .alreadyExists)

/-- Make a link to a path. -/
def makeLink (files : FileSystem) (path target : Path) : Except FileError FileSystem := do
  let route ← files.route path
  let directory ← files.follow route route.toLast
  match route.last? with
  | some (.enter name) =>
    match files.tree.get? (name :: directory) with
    | none =>
      if route.slash then .error (.system .noEntry)
      else .ok (files.withTree (files.tree.put (name :: directory) (.link target)))
    | some _ => .error (.system .alreadyExists)
  | some .overlong => .error (.system .nameTooLong)
  | some .stay | some .climb | none => .error (.system .alreadyExists)

/-- Remove an empty directory. -/
def removeDir (files : FileSystem) (path : Path) : Except FileError FileSystem := do
  let route ← files.route path
  let directory ← files.follow route route.toLast
  match route.last? with
  | some (.enter name) =>
    match files.tree.get? (name :: directory) with
    | none => .error (.system .noEntry)
    | some .directory =>
      if (files.tree.names (name :: directory)).isEmpty then
        .ok (files.withTree (files.tree.remove (name :: directory)))
      else .error (.system .notEmpty)
    | some _ => .error (.system .notDirectory)
  | some .overlong => .error (.system .nameTooLong)
  | some .stay => .error (.system .invalid)
  | some .climb => .error (.system .notEmpty)
  | none => .error (.system .busy)

/-- Remove a file or a link. -/
def unlink (files : FileSystem) (path : Path) : Except FileError FileSystem := do
  let route ← files.route path
  let directory ← files.follow route route.toLast
  match route.last? with
  | some (.enter name) =>
    match files.tree.get? (name :: directory) with
    | none => .error (.system .noEntry)
    | some .directory => .error (.system .isDirectory)
    | some _ =>
      if route.slash then .error (.system .notDirectory)
      else .ok (files.withTree (files.tree.remove (name :: directory)))
  | some .overlong => .error (.system .nameTooLong)
  | some .stay | some .climb | none => .error (.system .isDirectory)

/-- Write a file, in place of what was in it. -/
def write (files : FileSystem) (path : Path) (contents : List UInt8) :
    Except FileError FileSystem := do
  let route ← files.route path
  let place ←
    (files.tree.walkForWriting (maxLinks + 1) files.workingDirectory route).mapError .system
  .ok (files.withTree (files.tree.put place (.file contents)))

theorem makeDir_eq_ok_iff (files made : FileSystem) (path : Path) :
    files.makeDir path = .ok made ↔
      ∃ route directory name, files.route path = .ok route ∧
        files.follow route route.toLast = .ok directory ∧ route.last? = some (.enter name) ∧
        files.tree.get? (name :: directory) = none ∧
        made = files.withTree (files.tree.put (name :: directory) .directory) := by
  simp only [makeDir, bind, Except.bind]
  constructor
  · intro h
    split at h
    · simp only [reduceCtorEq] at h
    · rename_i route hroute
      split at h
      · simp only [reduceCtorEq] at h
      · rename_i directory hdir
        split at h
        · rename_i name hlast
          split at h
          · rename_i hnone
            simp only [Except.ok.injEq] at h
            exact ⟨route, directory, name, hroute, hdir, hlast, hnone, h.symm⟩
          · simp only [reduceCtorEq] at h
        all_goals simp only [reduceCtorEq] at h
  · rintro ⟨route, directory, name, hroute, hdir, hlast, hnone, rfl⟩
    simp only [hroute, hdir, hlast, hnone]

theorem write_eq_ok_iff (files written : FileSystem) (path : Path) (contents : List UInt8) :
    files.write path contents = .ok written ↔
      ∃ route place, files.route path = .ok route ∧
        files.tree.walkForWriting (maxLinks + 1) files.workingDirectory route = .ok place ∧
        written = files.withTree (files.tree.put place (.file contents)) := by
  simp only [write, bind, Except.bind]
  constructor
  · intro h
    split at h
    · simp only [reduceCtorEq] at h
    · rename_i route hroute
      cases hplace : files.tree.walkForWriting (maxLinks + 1) files.workingDirectory route with
      | error e => simp only [hplace, FileError.mapError_error, reduceCtorEq] at h
      | ok place =>
        simp only [hplace, FileError.mapError_ok, Except.ok.injEq] at h
        exact ⟨route, place, hroute, hplace, h.symm⟩
  · rintro ⟨route, place, hroute, hplace, rfl⟩
    simp only [hroute, hplace, FileError.mapError_ok]

end FileSystem

end TestWrappers
