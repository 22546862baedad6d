import TestWrappers.Text.Uppercase.Table

/-!
# Capital Letters

A text in capitals, for the letters of every script and whatever the place.

Each character is turned on its own, so capitals of a text are the capitals of
its parts put together. A character without a capital stays as it is, and a
letter such as the sharp s becomes the several characters it is written with.

## Main definitions

* `Uppercase.ofChar`: The capitals of one character.
* `Uppercase.ofString`: A text in capitals.

## Theorems

* `Uppercase.ofString_append`: Capitals of a text are those of its parts.
-/

namespace TestWrappers

namespace Uppercase

/-- The characters that a character becomes in capitals. -/
def ofChar (c : Char) : List Char :=
  match expansions.find? (·.1 == c.toNat) with
  | some (_, capitals) => capitals.map Char.ofNat
  | none => [((runs.findSome? (·.capital? c.toNat)).map Char.ofNat).getD c]

/-- A text in capitals. -/
def ofString (text : String) : String :=
  String.ofList (text.toList.flatMap ofChar)

theorem ofString_append (a b : String) : ofString (a ++ b) = ofString a ++ ofString b := by
  simp only [ofString, String.toList_append, List.flatMap_append, String.ofList_append]

end Uppercase

end TestWrappers
