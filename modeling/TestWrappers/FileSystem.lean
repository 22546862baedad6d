import TestWrappers.FileSystem.Resolve

/-!
# File Systems

A tree as a program sees it: from a working directory, through paths.

Every operation starts with a path and first asks where it leads. A path with a
zero byte is refused outright, an empty one leads nowhere, and one with more
bytes than the system takes is too long. The limit is a field, so that a file
system without it can be spoken of as well. Forty links may be followed on the
way, counting those of links' targets.

The questions below change nothing. All but `locateEntry` follow links, also in
the last place. That one stops at a link in the last place, unless a separator
stands behind it.

## Main definitions

* `FileSystem`: A tree, a working directory and a limit for paths.
* `FileSystem.locate`, `FileSystem.locateEntry`: Where a path leads, following a
  link in the last place or stopping at it.
* `FileSystem.status`: What a path leads to.
* `FileSystem.pathExists`, `FileSystem.isDirectory`: Whether it leads anywhere,
  and to a directory.
* `FileSystem.list`, `FileSystem.read`: What is in a directory or a file.
* `FileSystem.seenFrom`: The same entries from another working directory.

## Theorems

* `FileSystem.isDirectory_iff`: What leads to a directory has its status.
* `FileSystem.mem_list`: A listing names what is in the directory.
-/

namespace TestWrappers

/-- A tree as a program sees it. Once the working directory has been removed, no path that
    starts in it leads anywhere. A system may go on following single and double dots then, to
    a directory without entries and to the one that was around it; here they lead nowhere. -/
structure FileSystem where
  /-- The entries. -/
  tree : Tree
  /-- The directory that paths start in unless they start at the root. -/
  workingDirectory : Location
  /-- The greatest number of bytes of a path, if there is one. -/
  pathLimit : Option Nat

namespace FileSystem

/-- The greatest number of links that are followed on the way of a path. -/
def maxLinks : Nat := 40

/-- The path has more bytes than the system takes. -/
def isTooLong (files : FileSystem) (path : Path) : Bool :=
  match files.pathLimit with
  | none => false
  | some limit => limit < path.bytes.length

/-- The route of a path that can be looked up at all. -/
def route (files : FileSystem) (path : Path) : Except FileError Route :=
  if 0 ∈ path.bytes then .error .zeroByte
  else if path.bytes = [] then .error (.system .noEntry)
  else if files.isTooLong path then .error (.system .nameTooLong)
  else .ok path.route

/-- The location that steps of a route lead to. -/
def follow (files : FileSystem) (route : Route) (steps : List Step) : Except FileError Location :=
  (files.tree.walk (maxLinks + 1) (route.start files.workingDirectory) steps).mapError .system

/-- The location that a path leads to. -/
def locate (files : FileSystem) (path : Path) : Except FileError Location := do
  let route ← files.route path
  files.follow route route.toEnd

/-- The location of the entry that a path names, which may be a link. -/
def locateEntry (files : FileSystem) (path : Path) : Except FileError Location := do
  let route ← files.route path
  match route.last?, route.slash with
  | some (.enter name), false =>
    let directory ← files.follow route route.toLast
    if (files.tree.get? (name :: directory)).isSome then .ok (name :: directory)
    else .error (.system .noEntry)
  | _, _ => files.follow route route.toEnd

/-- What a path leads to. -/
def status (files : FileSystem) (path : Path) : Except FileError Entry := do
  let place ← files.locate path
  match files.tree.get? place with
  | some entry => .ok entry
  | none => .error (.system .noEntry)

/-- The path leads to something. -/
def pathExists (files : FileSystem) (path : Path) : Bool := (files.status path).isOk

/-- The path leads to a directory. -/
def isDirectory (files : FileSystem) (path : Path) : Bool :=
  match files.status path with
  | .ok .directory => true
  | _ => false

/-- The names in the directory that a path leads to. -/
def list (files : FileSystem) (path : Path) : Except FileError (List Name) := do
  let place ← files.locate path
  match files.tree.get? place with
  | some .directory => .ok (files.tree.names place)
  | some _ => .error (.system .notDirectory)
  | none => .error (.system .noEntry)

/-- The bytes of the file that a path leads to. -/
def read (files : FileSystem) (path : Path) : Except FileError (List UInt8) := do
  match ← files.status path with
  | .file contents => .ok contents
  | _ => .error (.system .isDirectory)

/-- The same entries, seen from the directory that a path leads to. -/
def seenFrom (files : FileSystem) (path : Path) : Except FileError FileSystem := do
  let place ← files.locate path
  match files.tree.get? place with
  | some .directory => .ok { files with workingDirectory := place }
  | _ => .error (.system .notDirectory)

theorem isDirectory_iff (files : FileSystem) (path : Path) :
    files.isDirectory path = true ↔ files.status path = .ok .directory := by
  simp only [isDirectory]
  split
  · rename_i h
    simp only [h]
  · rename_i h
    simp only [Bool.false_eq_true, false_iff]
    exact h

theorem status_eq_ok_iff (files : FileSystem) (path : Path) (entry : Entry) :
    files.status path = .ok entry ↔
      ∃ place, files.locate path = .ok place ∧ files.tree.get? place = some entry := by
  simp only [status, bind, Except.bind]
  cases files.locate path with
  | error e => simp only [reduceCtorEq, false_and, exists_false]
  | ok place =>
    simp only [Except.ok.injEq, exists_eq_left']
    cases files.tree.get? place with
    | none => simp only [reduceCtorEq]
    | some e => simp only [Except.ok.injEq, Option.some.injEq]

theorem mem_list {files : FileSystem} {path : Path} {names : List Name}
    (h : files.list path = .ok names) :
    ∃ place, files.locate path = .ok place ∧ files.tree.get? place = some .directory ∧
      ∀ name, name ∈ names ↔ (files.tree.get? (name :: place)).isSome = true := by
  simp only [list, bind, Except.bind] at h
  cases hplace : files.locate path with
  | error e => simp only [hplace, reduceCtorEq] at h
  | ok place =>
    simp only [hplace] at h
    split at h
    · rename_i hdir
      simp only [Except.ok.injEq] at h
      refine ⟨place, rfl, hdir, fun name => ?_⟩
      rw [← h]
      exact Tree.mem_names
    · simp only [reduceCtorEq] at h
    · simp only [reduceCtorEq] at h

end FileSystem

end TestWrappers
