/-!
# Decimal Notation

Which texts are numbers.

A number has digits, perhaps a point somewhere among them, and perhaps the
exponent of a power of ten. It may also be infinite, or the value that is no
number. A sign may stand in front of it.

## Main definitions

* `Decimal.isNumber`: A text is a number.
-/

namespace TestWrappers

namespace Decimal

/-- A text without the sign in front of it. -/
def unsigned : List Char → List Char
  | '+' :: cs | '-' :: cs => cs
  | cs => cs

/-- The text is a number of digits, and not empty. -/
def isDigits (text : List Char) : Bool := !text.isEmpty && text.all Char.isDigit

/-- The text is the exponent of a power of ten, or nothing. -/
def isExponent : List Char → Bool
  | [] => true
  | c :: cs => (c == 'e' || c == 'E') && isDigits (unsigned cs)

/-- The text is a number without a sign: digits before a point or behind it, and
    then the exponent. -/
def isUnsigned (text : List Char) : Bool :=
  let whole := text.takeWhile Char.isDigit
  match text.dropWhile Char.isDigit with
  | '.' :: cs =>
    !(whole ++ cs.takeWhile Char.isDigit).isEmpty && isExponent (cs.dropWhile Char.isDigit)
  | cs => !whole.isEmpty && isExponent cs

/-- The names of the numbers that have no digits, in small letters. -/
def names : List String := ["inf", "infinity", "nan"]

/-- The text is a number. -/
def isNumber (text : List Char) : Bool :=
  isUnsigned (unsigned text) ||
    names.contains (String.ofList ((unsigned text).map Char.toLower))

end Decimal

end TestWrappers
