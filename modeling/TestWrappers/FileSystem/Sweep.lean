import TestWrappers.FileSystem.Change

/-!
# Sweeping and Building Directories

Removing a directory with everything in it, and making a directory with
everything it needs.

Both are made of several changes, and when one of them fails the earlier ones
stay. So the outcome has two parts, the error if there is one and the file
system that is left.

Removing follows no link: a link that the path names is itself removed, and the
links inside a directory are removed and not what they point to. Once a
directory is empty its path is looked up again. If that leads nowhere now,
because the path passed through what was removed, there is nothing left to do.

Making a directory tries the path itself first. Only if something on the way is
missing are the paths it passes through made, the shortest first. That something
is there already is no error if it is a directory.

## Main definitions

* `FileSystem.removeTree`: Remove an entry with everything in it.
* `FileSystem.remove`: Remove whatever a path names.
* `FileSystem.makeDirs`: Make a directory and the directories on the way.
-/

namespace TestWrappers

namespace FileSystem

/-- A change that is one of several: what has been reached stays if it fails. -/
def attempt (files : FileSystem) (change : Except FileError FileSystem) :
    Except FileError Unit × FileSystem :=
  match change with
  | .ok changed => (.ok (), changed)
  | .error error => (.error error, files)

/-- Remove a directory with everything in it, or a link. -/
def removeTree (files : FileSystem) (path : Path) : Except FileError Unit × FileSystem :=
  match files.locateEntry path with
  | .error error => (.error error, files)
  | .ok place =>
    match files.tree.get? place with
    | some (.link _) => files.attempt (files.unlink path)
    | some .directory =>
      let emptied := files.withTree (files.tree.clear place)
      match emptied.removeDir path with
      | .error (.system .noEntry) => (.ok (), emptied)
      | change => emptied.attempt change
    | _ => (.error (.system .notDirectory), files)

/-- Remove whatever a path names, a directory with everything in it. -/
def remove (files : FileSystem) (path : Path) : Except FileError Unit × FileSystem :=
  match files.locateEntry path with
  | .error error => (.error error, files)
  | .ok place =>
    match files.tree.get? place with
    | some .directory => files.removeTree path
    | _ => files.attempt (files.unlink path)

/-- A directory that could not be made is no failure if it is there. -/
def acceptDir (files : FileSystem) (path : Path) (error : FileError) :
    Except FileError Unit × FileSystem :=
  if files.isDirectory path then (.ok (), files) else (.error error, files)

/-- Make the directory of the first path. If something on the way to it is
    missing, make those of the other paths before. -/
def makeEach (files : FileSystem) : List Path → Except FileError Unit × FileSystem
  | [] => (.ok (), files)
  | path :: passed =>
    match files.makeDir path with
    | .ok made => (.ok (), made)
    | .error (.system .noEntry) =>
      match files.makeEach passed with
      | (.error error, reached) => (.error error, reached)
      | (.ok (), reached) =>
        match reached.makeDir path with
        | .ok made => (.ok (), made)
        | .error error => reached.acceptDir path error
    | .error error => files.acceptDir path error

/-- Make a directory and the directories on the way to it. -/
def makeDirs (files : FileSystem) (path : Path) : Except FileError Unit × FileSystem :=
  files.makeEach path.ancestors

end FileSystem

end TestWrappers
