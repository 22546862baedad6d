/-!
# Nesting in Patterns

How deep the parts of a pattern are nested.

A single character has no depth. What stands around something is one deeper than
that: a group, a bracket, a repetition, or an operator between two classes. Parts
that stand together are one deeper than the deepest of them, unless there is only
one, which is as deep alone as it is with nothing beside it. A pattern whose depth
is past the limit is not read.

## Main definitions

* `Pattern.Nesting.together`: The depth of parts that stand together.
* `Pattern.Nesting.limit`: The greatest depth of a pattern.
-/

namespace TestWrappers

namespace Pattern

namespace Nesting

/-- The depth of the deepest of some parts. -/
def deepest (depths : List Nat) : Nat := depths.foldr max 0

/-- The depth of parts that stand together. -/
def together : List Nat → Nat
  | [] => 0
  | [depth] => depth
  | depths => deepest depths + 1

/-- The greatest depth of a pattern. -/
def limit : Nat := 250

end Nesting

end Pattern

end TestWrappers
