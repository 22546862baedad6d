import TestWrappers.CommandLine
import TestWrappers.Generation
import TestWrappers.Log.Filter
import TestWrappers.Report

/-!
# The Program

A run from its options to its exit status.

The wrappers of the layout that the options ask for are generated. If that
succeeds, the run tells so and ends with status zero. Otherwise it ends with
status one and a report. Everything it tells on the way goes through the filter
that the reader chose.

## Main definitions

* `Program.Outcome`: How a run ended.
* `Program.run`: A run with given options.
* `Program.filter`: The filter for what the run tells.

## Theorems

* `Program.filter_unwritten`: Without a written filter the verbosity decides.
-/

namespace TestWrappers

namespace Program

/-- The name and version of the program. -/
def version : String := "art-testgen 0.1.0"

/-- How a run ended. -/
structure Outcome where
  /-- The exit status. -/
  exitStatus : Nat
  /-- What is reported about a failure. -/
  report : String
deriving DecidableEq, Repr

/-- Generate the wrappers of a layout, and tell when that is done. -/
def generateAll {m : Type → Type} [Monad m] [Host m] (layout : Layout) :
    ExceptT Failure m Summary := do
  let summary ← Generation.generate layout
  Generation.tell (.done summary.configurations summary.filesWritten)
  return summary

/-- Run with the given options. -/
def run {m : Type → Type} [Monad m] [Host m] (options : Options) : m Outcome := do
  match ← (generateAll options.layout).run with
  | .ok _ => return ⟨0, ""⟩
  | .error failure => return ⟨1, Report.ofFailure options.layout failure⟩

/-- The filter for what a run tells: the one that is written down, if it can be
    read, and otherwise the one for the verbosity. -/
def filter (written : Option String) (options : Options) : Filter :=
  Filter.choose written options.verbosity

theorem filter_unwritten (options : Options) :
    filter none options = Filter.ofVerbosity options.verbosity := rfl

end Program

end TestWrappers
