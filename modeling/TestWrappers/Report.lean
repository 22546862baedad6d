import TestWrappers.Failure
import TestWrappers.Layout

/-!
# Reports

What a reader is told about a run that failed.

A report says what was being done and then, cause by cause, why it failed. A
cause that is not the only one is numbered. A cause may be longer than a line,
since paths can hold line breaks; its further lines are set in below the first.

## Main definitions

* `Report.ofCauses`: A heading and its causes.
* `Report.ofFailure`: The report about a run that failed.
-/

namespace TestWrappers

namespace Report

/-- A text with a margin in front of every line but the first. -/
def indent (margin : String) (text : List Char) : List Char :=
  text.flatMap fun c => if c = '\n' then '\n' :: margin.toList else [c]

/-- One cause of several, by its number. -/
def numbered (number : Nat) (cause : String) : String :=
  "    " ++ toString number ++ ": " ++ String.ofList (indent "       " cause.toList) ++ "\n"

/-- The only cause. -/
def single (cause : String) : String :=
  "    " ++ String.ofList (indent "    " cause.toList) ++ "\n"

/-- A heading and its causes, the nearest one first. -/
def ofCauses (heading : String) (causes : List String) : String :=
  "Error: " ++ heading ++ "\n\nCaused by:\n" ++
    match causes with
    | [cause] => single cause
    | causes => String.join (causes.mapIdx numbered)

/-- The report about a run that failed. -/
def ofFailure (layout : Layout) (failure : Failure) : String :=
  ofCauses
    ("generating art tests from " ++ layout.testDir.display ++ " into " ++
      layout.outputDir.display)
    (failure.message :: failure.cause?.toList.map FileError.message)

end Report

end TestWrappers
