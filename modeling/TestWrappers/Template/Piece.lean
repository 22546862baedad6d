/-!
# Template Pieces

What a template says, taken apart into the stretches it is written from.

A template is a text in which a dollar sign announces a value to be filled in.
A name may stand bare behind the sign or in braces, and a dollar sign that is
meant literally is written twice. The three constructors of `Piece` are those
three ways of writing, and `Piece.written` gives back the very characters, so
a list of pieces and the text it is written as determine each other as far as
the longest-name rule allows.

The characters of a name are ASCII letters, digits and the underscore, and a
name does not start with a digit. A letter outside ASCII therefore ends a bare
name.

## Main definitions

* `Identifier.isStart`, `Identifier.isPart`: The characters of a name.
* `Piece`: A literal stretch or a reference to a value.
* `Piece.written`: The characters a piece is written with.
* `Piece.value?`: The characters a piece stands for, given the values.
* `Bindings`: The values that names are bound to.

## Theorems

* `Piece.value?_eq_none_iff`: Only a reference to an unbound name stands for
  nothing.
-/

namespace TestWrappers

namespace Identifier

/-- The character may start a name. -/
def isStart (c : Char) : Bool := c.isAlpha || c == '_'

/-- The character may stand inside a name. -/
def isPart (c : Char) : Bool := isStart c || c.isDigit

end Identifier

/-- The values that names are bound to. A name without a value is unbound. -/
abbrev Bindings := String → Option String

/-- A stretch of a template. -/
inductive Piece where
  /-- Text that stands for itself. -/
  | literal (text : List Char)
  /-- A reference written as a dollar sign and a name. -/
  | bare (name : List Char)
  /-- A reference written as a dollar sign and a name in braces. -/
  | braced (name : List Char)
deriving DecidableEq, Repr

namespace Piece

/-- A literal character as a template writes it: a dollar sign is doubled. -/
def writtenChar (c : Char) : List Char :=
  if c = '$' then ['$', '$'] else [c]

/-- The characters a piece is written with. -/
def written : Piece → List Char
  | literal text => text.flatMap writtenChar
  | bare name => '$' :: name
  | braced name => '$' :: '\x7b' :: (name ++ ['\x7d'])

/-- The name a piece refers to, if it is a reference. -/
def name? : Piece → Option String
  | literal _ => none
  | bare name => some (String.ofList name)
  | braced name => some (String.ofList name)

/-- The characters a piece stands for, or nothing if its name is unbound. A
    value is inserted as it is, whatever it contains. -/
def value? (values : Bindings) (piece : Piece) : Option (List Char) :=
  match piece with
  | literal text => some text
  | bare name => (values (String.ofList name)).map String.toList
  | braced name => (values (String.ofList name)).map String.toList

theorem value?_eq_none_iff (values : Bindings) (piece : Piece) :
    piece.value? values = none ↔ ∃ name, piece.name? = some name ∧ values name = none := by
  cases piece <;> simp [value?, name?]

end Piece

end TestWrappers
