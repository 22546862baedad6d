import TestWrappers.FileSystem

/-!
# Surveys

Everything below a directory, as a table.

A survey gives every entry inside a directory, however deep, by the path that
leads to it from there. Links are entries like others and are not followed. The
rows stand in the order of the bytes of their paths, so two surveys are equal if
the same entries are at the same places.

## Main definitions

* `Location.pathFrom`: The path from a directory to something inside it.
* `FileSystem.survey`: The entries below a directory.
-/

namespace TestWrappers

/-- The path that leads from a directory to a location inside it. -/
def Location.pathFrom (outer inner : Location) : Path :=
  .ofSegments ((inner.take (inner.length - outer.length)).reverse.map Name.bytes)

namespace FileSystem

/-- The entries below the directory that a path leads to. -/
def survey (files : FileSystem) (path : Path) : Except FileError (List (Path × Entry)) := do
  let place ← files.locate path
  let below := files.tree.nodes.filter fun node => node.1.isWithin place && node.1 != place
  let rows := below.map fun node => (Location.pathFrom place node.1, node.2)
  .ok (rows.mergeSort fun a b => decide (a.1.bytes ≤ b.1.bytes))

end FileSystem

end TestWrappers
