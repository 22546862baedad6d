import TestWrappers.Text.Pattern.Mode
import TestWrappers.Text.Pattern.Nesting

/-!
# Reading Patterns

What is to be kept of the part of a pattern that has been read.

A pattern is read from left to right. Its groups are open until their closing
parenthesis comes, and of each open group two things matter for what follows: how
it is read, and how deep its pieces are. Flags change how the innermost group is
read, and behind a group that is as it was before.

## Main definitions

* `Pattern.Group`: An open group.
* `Pattern.Reading`: The open groups, and what can follow.
-/

namespace TestWrappers

namespace Pattern

/-- An open group. A pattern as a whole is one, too. -/
structure Group where
  /-- How the rest of it is read. -/
  mode : Mode
  /-- The depths of the alternatives that are complete, the last first. -/
  alternatives : List Nat
  /-- The depths of the pieces of the alternative that is not, the last first. -/
  pieces : List Nat
deriving DecidableEq, Repr

namespace Group

/-- A group that nothing has been read of. -/
def empty (mode : Mode) : Group := ⟨mode, [], []⟩

/-- The group with one more piece. -/
def add (group : Group) (depth : Nat) : Group := { group with pieces := depth :: group.pieces }

/-- The group with its last piece repeated. -/
def wrap (group : Group) : Group :=
  match group.pieces with
  | [] => group
  | depth :: pieces => { group with pieces := (depth + 1) :: pieces }

/-- The group with its last alternative complete. -/
def complete (group : Group) : Group :=
  ⟨group.mode, Nesting.together group.pieces :: group.alternatives, []⟩

/-- The depth of what has been read of a group. -/
def depth (group : Group) : Nat := Nesting.together group.complete.alternatives

end Group

/-- What is to be kept of the part of a pattern that has been read. -/
structure Reading where
  /-- The innermost open group. -/
  group : Group
  /-- The groups around it, the next first. -/
  outer : List Group
  /-- The names of the groups up to here. -/
  names : List (List Char)
  /-- Something that can be repeated comes before. -/
  repeatable : Bool
deriving DecidableEq, Repr

namespace Reading

/-- At the start of a pattern. -/
def start : Reading := ⟨Group.empty Mode.plain, [], [], false⟩

/-- How the rest of the innermost group is read. -/
def mode (reading : Reading) : Mode := reading.group.mode

/-- Behind a piece of the given depth, which can be repeated. -/
def behindPiece (reading : Reading) (depth : Nat) : Reading :=
  { reading with group := reading.group.add depth, repeatable := true }

/-- Behind flags. They are a piece, too, but cannot be repeated. -/
def behindFlags (reading : Reading) (mode : Mode) : Reading :=
  { reading with group := { reading.group.add 0 with mode := mode }, repeatable := false }

/-- Behind the bar between two alternatives. -/
def behindBar (reading : Reading) : Reading :=
  { reading with group := reading.group.complete, repeatable := false }

/-- Behind the sign that repeats a piece, if there is one. -/
def behindRepetition (reading : Reading) : Option Reading :=
  if reading.repeatable then some { reading with group := reading.group.wrap } else none

/-- At the start of a group that is read in the given mode. -/
def enter (reading : Reading) (mode : Mode) : Reading :=
  ⟨Group.empty mode, reading.group :: reading.outer, reading.names, false⟩

/-- Behind the closing parenthesis of the innermost group, if that has one. -/
def leave (reading : Reading) : Option Reading :=
  match reading.outer with
  | [] => none
  | next :: outer => some ⟨next.add (reading.group.depth + 1), outer, reading.names, true⟩

/-- This may be the end of a pattern. -/
def mayEnd (reading : Reading) : Bool :=
  reading.outer.isEmpty && reading.group.depth ≤ Nesting.limit

end Reading

end Pattern

end TestWrappers
