import TestWrappers.Text.Letter.Table

/-!
# Letters and Numerals

The characters that words and numbers are written with, in all scripts.

## Main definitions

* `Letter.isLetter`: A character is a letter.
* `Letter.isNumeral`: A character is a numeral.
* `Letter.isLetterOrNumeral`: A character is one or the other.
-/

namespace TestWrappers

namespace Letter

/-- The character is a letter. -/
def isLetter (c : Char) : Bool := CharRange.anyContains letterRanges c

/-- The character is a numeral. -/
def isNumeral (c : Char) : Bool := CharRange.anyContains numeralRanges c

/-- The character is a letter or a numeral. -/
def isLetterOrNumeral (c : Char) : Bool := isLetter c || isNumeral c

end Letter

end TestWrappers
