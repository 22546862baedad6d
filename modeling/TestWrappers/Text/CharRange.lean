/-!
# Ranges of Characters

A class of characters as a list of ranges of code points.

The classes of the Unicode standard have thousands of members, and most of them
stand side by side. A list of ranges says which they are, each range with its
first and its last code point.

## Main definitions

* `CharRange`: The characters from one code point to another.
* `CharRange.contains`: A character is in a range.
* `CharRange.anyContains`: A character is in one of several ranges.
-/

namespace TestWrappers

/-- The characters from one code point to another, both included. -/
structure CharRange where
  /-- The first code point. -/
  first : Nat
  /-- The last code point. -/
  last : Nat
deriving DecidableEq, Repr

namespace CharRange

/-- The character is in the range. -/
def contains (range : CharRange) (c : Char) : Bool :=
  range.first ≤ c.toNat && c.toNat ≤ range.last

/-- The character is in one of the ranges. -/
def anyContains (ranges : List CharRange) (c : Char) : Bool := ranges.any (·.contains c)

end CharRange

end TestWrappers
