import TestWrappers.FileSystem.Error
import TestWrappers.Path
import TestWrappers.Template.Substitute

/-!
# Failures

Why wrappers could not be generated.

A failure says what was being done and to which path. If the file system was the
reason, its error is kept as the cause, so that a report can give both. A
failure of the template has no cause beyond itself, and neither has a directory
whose name is no text.

## Main definitions

* `Failure`: What could not be done.
* `Failure.kind`: The part of the work that failed.
* `Failure.message`: The wording of a failure.
* `Failure.cause?`: The error of the file system behind it.

## Theorems

* `Failure.kind_eq_template_iff`: Only the template fails as a template.
-/

namespace TestWrappers

/-- What could not be done. -/
inductive Failure where
  /-- The test cases in a directory could not be listed. -/
  | listing (directory : Path) (cause : FileError)
  /-- The name of the directory of a test case is no text. -/
  | undecodableName (directory : Path)
  /-- The directory for the wrappers could not be emptied or made. -/
  | clearing (directory : Path) (cause : FileError)
  /-- A file could not be written. -/
  | writing (file : Path) (cause : FileError)
  /-- The text of a wrapper could not be filled in. -/
  | filling (fault : Template.Fault)
deriving DecidableEq

namespace Failure

/-- A part of the work. -/
inductive Kind where
  /-- Finding the test cases. -/
  | discovery
  /-- Writing the wrappers. -/
  | write
  /-- Filling in their text. -/
  | template
deriving DecidableEq, Repr

/-- The part of the work that failed. -/
def kind : Failure → Kind
  | listing _ _ | undecodableName _ => .discovery
  | clearing _ _ | writing _ _ => .write
  | filling _ => .template

/-- The wording of a failure. -/
def message : Failure → String
  | listing directory _ => "cannot list test cases in " ++ directory.display
  | undecodableName directory =>
    "test case directory name is not valid UTF-8: " ++ directory.display
  | clearing directory _ => "cannot reset output directory " ++ directory.display
  | writing file _ => "cannot write " ++ file.display
  | filling fault => fault.message

/-- The error of the file system behind a failure. -/
def cause? : Failure → Option FileError
  | listing _ cause | clearing _ cause | writing _ cause => some cause
  | undecodableName _ | filling _ => none

theorem kind_eq_template_iff (failure : Failure) :
    failure.kind = .template ↔ ∃ fault, failure = .filling fault := by
  cases failure <;> simp [kind]

end Failure

end TestWrappers
