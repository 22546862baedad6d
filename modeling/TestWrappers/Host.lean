import TestWrappers.FileSystem.Sweep
import TestWrappers.Log.Event

/-!
# Hosts

What a run asks of its surroundings, and surroundings it can be thought in.

A run looks at files, changes them and tells what it does. `Host` lists these
requests. A run is written against the list alone, so the program that works on
real files and the run that statements are made about are one and the same.

`World` is the host for statements: a file system as a value, and the events
told so far. Looking leaves it as it is, changing touches its files only, and
telling adds an event at the end.

## Main definitions

* `Host`: The requests a run makes.
* `World`: A file system and the events told so far.
-/

namespace TestWrappers

/-- The requests that a run makes. -/
class Host (m : Type → Type) where
  /-- The names in the directory that a path leads to. -/
  list : Path → m (Except FileError (List (List UInt8)))
  /-- The path leads to a directory. -/
  isDirectory : Path → m Bool
  /-- The path leads to something. -/
  pathExists : Path → m Bool
  /-- Remove a directory with everything in it, or a link. -/
  removeTree : Path → m (Except FileError Unit)
  /-- Make a directory and the directories on the way to it. -/
  makeDirs : Path → m (Except FileError Unit)
  /-- Write a file, in place of what was in it. -/
  write : Path → List UInt8 → m (Except FileError Unit)
  /-- Tell of an event. -/
  log : Event → m Unit

/-- A file system and the events told so far. -/
structure World where
  /-- The files. -/
  files : FileSystem
  /-- The events, the first one first. -/
  events : List Event

namespace World

/-- Look at the files. -/
def look {α : Type} (question : FileSystem → α) : StateM World α :=
  fun world => (question world.files, world)

/-- Change the files. -/
def change (act : FileSystem → Except FileError Unit × FileSystem) :
    StateM World (Except FileError Unit) :=
  fun world => ((act world.files).1, { world with files := (act world.files).2 })

instance : Host (StateM World) where
  list path := look fun files => (files.list path).map (·.map Name.bytes)
  isDirectory path := look (·.isDirectory path)
  pathExists path := look (·.pathExists path)
  removeTree path := change (·.removeTree path)
  makeDirs path := change (·.makeDirs path)
  write path contents := change fun files => files.attempt (files.write path contents)
  log event := fun world => ((), { world with events := world.events ++ [event] })

end World

end TestWrappers
