import TestWrappers.Path

/-!
# Layouts

Where the test cases are found and where the wrappers go.

A layout is two directories, and everything a run does is placed relative to
them. The standard places are relative paths; rooting them takes them from a
given directory.

## Main definitions

* `Layout`: The directory of the fixtures and that of the wrappers.
* `Layout.rooted`: The standard places, taken from a root.
* `Layout.sameAs`: The two layouts name the same places.

## Theorems

* `Layout.sameAs_refl`: A layout names the places it names.
-/

namespace TestWrappers

/-- The two directories of a run. -/
structure Layout where
  /-- The fixtures, one directory for each fixture set. -/
  testDir : Path
  /-- The wrappers, one directory for each toolchain. -/
  outputDir : Path
deriving DecidableEq, Repr

namespace Layout

/-- The standard place of the fixtures. -/
def standardTestDir : String := "tests/2017-10-04/art"

/-- The standard place of the wrappers. -/
def standardOutputDir : String := "build/generated/test/java/com/android/tools/r8/art"

/-- The standard places. -/
def standard : Layout := ⟨Path.ofString standardTestDir, Path.ofString standardOutputDir⟩

/-- The standard places, taken from a root. -/
def rooted (root : Path) : Layout :=
  ⟨root.join standard.testDir, root.join standard.outputDir⟩

/-- The two layouts name the same places, however they are spelled. -/
def sameAs (a b : Layout) : Bool :=
  a.testDir.sameAs b.testDir && a.outputDir.sameAs b.outputDir

theorem sameAs_refl (a : Layout) : a.sameAs a = true := by
  simp only [sameAs, Path.sameAs, beq_self_eq_true, Bool.and_self]

end Layout

end TestWrappers
