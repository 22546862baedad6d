import TestWrappers.Generation

/-!
# Runs in a World

What the parts of a generation do to a world, as equations.

In a world a part of the work is a function: from the world in front of it to
its result and the world behind it. The equations say which function each part
is, in terms of the operations of the file system alone, so that nothing about
requests or their order has to be looked up again.

The parts are put together by doing one after the other until one fails.

## Main definitions

* `Run`: A part of the work in a world.
* `Generation.testCases`: The test cases that a file system holds.

## Theorems

* `Run.run_bind`: One part after another.
* `Generation.run_discover`: Looking for test cases leaves the world as it is.
* `Generation.run_reset`: What resetting a directory does.
* `Generation.run_writeFile`: What writing a file does.
-/

namespace TestWrappers

/-- A part of the work in a world. -/
abbrev Run (α : Type) := ExceptT Failure (StateM World) α

namespace Run

variable {α β : Type}

theorem run_pure (a : α) (world : World) : (pure a : Run α) world = (.ok a, world) := rfl

theorem run_bind (first : Run α) (next : α → Run β) (world : World) :
    (first >>= next) world =
      match first world with
      | (.ok a, reached) => next a reached
      | (.error failure, reached) => (.error failure, reached) := by
  simp only [bind, ExceptT.bind, ExceptT.mk, StateT.bind]
  rcases first world with ⟨_ | a, reached⟩ <;> rfl

end Run

namespace Generation

/-- The test cases that a file system holds in a directory. -/
def testCases (files : FileSystem) (source : Path) : Except Failure (List String) :=
  match files.list source with
  | .error cause => .error (.listing source cause)
  | .ok names =>
    let bytes := names.map Name.bytes
    match readNames (bytes.filter fun name => files.isDirectory (source.join ⟨name⟩)) with
    | .ok names => .ok names
    | .error name => .error (.undecodableName (source.join ⟨name⟩))

theorem run_directoriesAmong (source : Path) (names : List (List UInt8)) (world : World) :
    (directoriesAmong source names : StateM World (List (List UInt8))) world =
      (names.filter fun name => world.files.isDirectory (source.join ⟨name⟩), world) := by
  induction names with
  | nil => rfl
  | cons name names ih =>
    simp only [directoriesAmong, bind, StateT.bind, Host.isDirectory, World.look] at ih ⊢
    simp only [ih, List.filter_cons]
    cases world.files.isDirectory (source.join ⟨name⟩) <;> rfl

theorem run_tell (event : Event) (world : World) :
    (tell event : Run Unit) world =
      (.ok (), { world with events := world.events ++ [event] }) := rfl

theorem run_discover (source : Path) (world : World) :
    (discover source : Run (List String)) world = (testCases world.files source, world) := by
  have hask : (ask (Host.list source) (.listing source) : Run (List (List UInt8))) world =
      (((world.files.list source).map (·.map Name.bytes)).mapError (.listing source), world) := rfl
  have hlift : ∀ names, (ExceptT.lift (directoriesAmong source names) :
      Run (List (List UInt8))) world =
        (.ok (names.filter fun name => world.files.isDirectory (source.join ⟨name⟩)), world) := by
    intro names
    have hnames := run_directoriesAmong source names world
    simp only [ExceptT.lift, ExceptT.mk, Functor.map, StateT.map, bind, hnames]
    rfl
  rw [discover, Run.run_bind, hask, testCases]
  cases world.files.list source with
  | error cause => rfl
  | ok names =>
    simp only [Except.map, FileError.mapError_ok]
    rw [Run.run_bind, hlift]
    dsimp only
    split
    · rename_i h
      simp only [h]
      rfl
    · rename_i h
      simp only [h]
      rfl

/-- What removing and making anew does, with the first error if there is one. -/
def resetFiles (files : FileSystem) (output : Path) : Except FileError Unit × FileSystem :=
  if files.pathExists output then
    match files.removeTree output with
    | (.ok (), removed) => removed.makeDirs output
    | (.error error, left) => (.error error, left)
  else
    files.makeDirs output

theorem run_reset (output : Path) (world : World) :
    (reset output : Run Unit) world =
      ((resetFiles world.files output).1.mapError (.clearing output),
        { world with files := (resetFiles world.files output).2 }) := by
  have hexists : (ExceptT.lift (Host.pathExists output) : Run Bool) world =
      (.ok (world.files.pathExists output), world) := rfl
  rw [reset, Run.run_bind, hexists, resetFiles]
  dsimp only
  cases world.files.pathExists output with
  | false => rfl
  | true =>
    simp only [↓reduceIte]
    rw [Run.run_bind]
    have hremove : (ask (Host.removeTree output) (.clearing output) : Run Unit) world =
        ((world.files.removeTree output).1.mapError (.clearing output),
          { world with files := (world.files.removeTree output).2 }) := rfl
    rw [hremove]
    rcases world.files.removeTree output with ⟨_ | _, left⟩ <;> rfl

theorem run_writeFile (file : Path) (contents : String) (world : World) :
    (writeFile file contents : Run Unit) world =
      match world.files.write file (Utf8.encode contents) with
      | .ok written => (.ok (), { world with files := written })
      | .error error => (.error (.writing file error), world) := by
  have hwrite : (writeFile file contents : Run Unit) world =
      ((world.files.attempt (world.files.write file (Utf8.encode contents))).1.mapError
          (.writing file),
        { world with
          files := (world.files.attempt (world.files.write file (Utf8.encode contents))).2 }) :=
    rfl
  rw [hwrite]
  cases world.files.write file (Utf8.encode contents) <;> rfl

end Generation

end TestWrappers
