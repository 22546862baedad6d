import TestWrappers.Text.CharRange

/-!
# Blanks

The characters that only set others apart, in all scripts.

These are the ones with the property `White_Space` of the Unicode standard:
spaces of every width, tabulators and the ends of lines and paragraphs. A space
that has no width at all is not among them.

## Main definitions

* `Blank.isBlank`: A character is a blank.
* `Blank.trim`: A text without the blanks around it.
-/

namespace TestWrappers

namespace Blank

/-- The blanks of all scripts. -/
def ranges : List CharRange :=
  [
    ⟨0x0009, 0x000D⟩, ⟨0x0020, 0x0020⟩, ⟨0x0085, 0x0085⟩, ⟨0x00A0, 0x00A0⟩, ⟨0x1680, 0x1680⟩,
    ⟨0x2000, 0x200A⟩, ⟨0x2028, 0x2029⟩, ⟨0x202F, 0x202F⟩, ⟨0x205F, 0x205F⟩, ⟨0x3000, 0x3000⟩
  ]

/-- The character is a blank. -/
def isBlank (c : Char) : Bool := CharRange.anyContains ranges c

/-- A text without the blanks at its end. -/
def trimEnd (text : List Char) : List Char := (text.reverse.dropWhile isBlank).reverse

/-- A text without the blanks around it. -/
def trim (text : List Char) : List Char := trimEnd (text.dropWhile isBlank)

end Blank

end TestWrappers
