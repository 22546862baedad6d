import TestWrappers.Failure
import TestWrappers.Host
import TestWrappers.Wrapper

/-!
# Generating Wrappers

From the directories of a fixture set to a directory of wrappers.

The test cases of a configuration are the directories in its source directory,
links to directories included. They are gone through in the order of the bytes
of their names, whatever the order of listing. A directory whose name is no text
cannot become a class, and it stops the run before anything of the configuration
is changed.

The directory for the wrappers is emptied by removing it with everything in it
and making it anew, so no wrapper of an earlier run outlives its test case. Then
the wrappers are written one after the other.

Configurations are done in order, and the first failure ends the run. What was
written before stays.

## Main definitions

* `Generation.discover`: The test cases in a directory.
* `Generation.reset`: Empty a directory, or make it.
* `Generation.generateConfiguration`: The wrappers of one configuration.
* `Generation.generate`: The wrappers of all configurations.

## Theorems

* `Generation.readNames_eq_error_iff`: When the names of directories cannot be
  read.
-/

namespace TestWrappers

/-- How much was done. -/
structure Summary where
  /-- The configurations that are complete. -/
  configurations : Nat
  /-- The wrappers written for them. -/
  filesWritten : Nat
deriving DecidableEq, Repr

namespace Generation

/-- The names as texts, in the order of their bytes, or the first name that is
    no text. -/
def readNames (names : List (List UInt8)) : Except (List UInt8) (List String) :=
  match names.find? fun name => (Utf8.decode? name).isNone with
  | some name => .error name
  | none => .ok ((names.mergeSort fun a b => decide (a ≤ b)).filterMap Utf8.decode?)

theorem readNames_eq_error_iff (names : List (List UInt8)) :
    (∃ name, readNames names = .error name) ↔ ∃ name ∈ names, Utf8.decode? name = none := by
  simp only [readNames]
  split
  · rename_i name h
    have hmem := List.mem_of_find?_eq_some h
    have hnone := List.find?_some h
    simp only [Option.isNone_iff_eq_none] at hnone
    exact ⟨fun _ => ⟨name, hmem, hnone⟩, fun _ => ⟨name, rfl⟩⟩
  · rename_i h
    simp only [List.find?_eq_none, Option.isNone_iff_eq_none] at h
    simp only [reduceCtorEq, exists_false, false_iff, not_exists, not_and]
    exact h

section

variable {m : Type → Type} [Monad m] [Host m]

/-- Ask the host, and fail if it fails. -/
def ask {α : Type} (request : m (Except FileError α)) (failure : FileError → Failure) :
    ExceptT Failure m α :=
  ExceptT.mk (Except.mapError failure <$> request)

/-- Tell of an event. -/
def tell (event : Event) : ExceptT Failure m Unit := ExceptT.lift (Host.log event)

/-- The names that lead from a directory to directories, in their order. -/
def directoriesAmong (source : Path) : List (List UInt8) → m (List (List UInt8))
  | [] => return []
  | name :: names => do
    let found ← Host.isDirectory (source.join ⟨name⟩)
    let others ← directoriesAmong source names
    return if found then name :: others else others

/-- The names of the test cases in a directory. -/
def discover (source : Path) : ExceptT Failure m (List String) := do
  let names ← ask (Host.list source) (.listing source)
  let directories ← ExceptT.lift (directoriesAmong source names)
  match readNames directories with
  | .ok names => return names
  | .error name => throw (.undecodableName (source.join ⟨name⟩))

/-- Empty a directory by removing it with everything in it, and make it anew. -/
def reset (output : Path) : ExceptT Failure m Unit := do
  if ← ExceptT.lift (Host.pathExists output) then
    ask (Host.removeTree output) (.clearing output)
  ask (Host.makeDirs output) (.clearing output)

/-- Write a text to a file. -/
def writeFile (file : Path) (contents : String) : ExceptT Failure m Unit :=
  ask (Host.write file (Utf8.encode contents)) (.writing file)

/-- Write the wrapper of a test case. -/
def writeWrapper (config : Configuration) (name : String) : ExceptT Failure m Unit := do
  let contents ← ExceptT.mk (pure ((Wrapper.render ⟨name⟩ config).mapError .filling))
  let file := config.outputDir.join (.ofString (TestCase.fileName ⟨name⟩))
  writeFile file contents
  tell (.wrote file)

/-- Write the wrappers of a configuration and count them. -/
def generateConfiguration (config : Configuration) : ExceptT Failure m Nat := do
  let names ← discover config.sourceDir
  tell (.generating config.toolchain.name config.tool.name names.length)
  if names.isEmpty then
    tell (.noTestCases config.sourceDir)
  reset config.outputDir
  names.forM (writeWrapper config)
  return names.length

/-- Write the wrappers of one more configuration. -/
def generateNext (summary : Summary) (config : Configuration) : ExceptT Failure m Summary := do
  let written ← generateConfiguration config
  return ⟨summary.configurations + 1, summary.filesWritten + written⟩

/-- Write the wrappers of all configurations of a layout. -/
def generate (layout : Layout) : ExceptT Failure m Summary :=
  (configurations layout).foldlM generateNext ⟨0, 0⟩

end

end Generation

end TestWrappers
