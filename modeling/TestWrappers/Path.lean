import TestWrappers.Text.Utf8

/-!
# Paths

How a place in a file system is written down.

A path is a sequence of bytes and stays exactly as it was written: joining two
paths puts the second behind the first and tidies nothing. What a path means
is read off its segments, the stretches between its separators. An empty
segment, as a doubled or trailing separator makes it, says nothing of its own.

Two spellings may mean the same whatever the files are. `components` is the
part of the meaning that can be known without looking: separators and inner
single dots are dropped, but a single dot in front is kept, and so is every
double dot, because it climbs out of wherever a link has led to.

## Main definitions

* `Path`: A path as its bytes.
* `Path.join`: A path taken from another path.
* `Path.segments`: The stretches between separators.
* `Path.components`: What a path says, one component after the other.
* `Path.ancestors`: The path and those it passes through, from the longest.

## Theorems

* `Path.ofSegments_segments`: A path is its segments with separators between.
* `Path.segments_ne_nil`: Every path has a segment.
-/

namespace TestWrappers

/-- A path, as the bytes it is written with. -/
structure Path where
  /-- The bytes. -/
  bytes : List UInt8
deriving DecidableEq, Repr

namespace Path

/-- The byte that separates segments. -/
def separator : UInt8 := 0x2F

/-- The byte of the segments that stay or climb. -/
def dot : UInt8 := 0x2E

/-- A text as a path. -/
def ofString (text : String) : Path := ⟨Utf8.encode text⟩

/-- A path as text for a reader. -/
def display (path : Path) : String := Utf8.display path.bytes

/-- The path starts at the root. -/
def isAbsolute (path : Path) : Bool := path.bytes.head? == some separator

/-- A path taken from another one. A path that starts at the root is not taken
    from anywhere. Otherwise a separator is put between the two, unless one is
    there or the first path is empty. -/
def join (a b : Path) : Path :=
  if b.isAbsolute then b
  else if a.bytes = [] ∨ a.bytes.getLast? = some separator then ⟨a.bytes ++ b.bytes⟩
  else ⟨a.bytes ++ separator :: b.bytes⟩

/-- The stretches between the separators of a sequence of bytes. -/
def split : List UInt8 → List (List UInt8)
  | [] => [[]]
  | b :: bytes =>
    if b = separator then
      [] :: split bytes
    else
      match split bytes with
      | [] => [[b]]
      | segment :: segments => (b :: segment) :: segments

/-- The segments of a path. The first one is empty if the path starts at the
    root, and also if the path is empty. -/
def segments (path : Path) : List (List UInt8) := split path.bytes

/-- The path with the given segments. -/
def ofSegments (segments : List (List UInt8)) : Path := ⟨[separator].intercalate segments⟩

/-- The segment says nothing unless it stands in front. -/
def isIdle (segment : List UInt8) : Bool := segment == [] || segment == [dot]

/-- A step of what a path says. -/
inductive Component where
  /-- Start at the root. -/
  | root
  /-- Start from the working directory, said with a single dot. -/
  | here
  /-- Climb to the directory around. -/
  | up
  /-- Go to the entry of this name. -/
  | name (bytes : List UInt8)
deriving DecidableEq, Repr

/-- What a segment says that is not idle. -/
def Component.ofSegment (segment : List UInt8) : Component :=
  if segment = [dot, dot] then up else name segment

/-- What a path says, one component after the other. -/
def components (path : Path) : List Component :=
  let front :=
    if path.isAbsolute then [.root]
    else if path.segments.head? = some [dot] then [.here]
    else []
  front ++ (path.segments.filter (!isIdle ·)).map Component.ofSegment

/-- The two paths say the same. -/
def sameAs (a b : Path) : Bool := a.components == b.components

/-- The paths with the given first segment and with initial stretches of the
    other segments, which are given last first. A path ends in a segment that
    is not idle, and the empty path and the root are left out. -/
def ancestorsFrom (first : List UInt8) : List (List UInt8) → List Path
  | [] => if first = [] then [] else [⟨first⟩]
  | segment :: segments =>
    if isIdle segment then
      ancestorsFrom first segments
    else
      ofSegments (first :: (segment :: segments).reverse) :: ancestorsFrom first segments

/-- The path as it is written, then the paths that it passes through, from the
    longest to the shortest. The root passes through nothing, and the empty path
    is none at all. -/
def ancestors (path : Path) : List Path :=
  if path.bytes = [] then []
  else
    match path.segments with
    | [] => []
    | first :: segments => path :: (ancestorsFrom first segments.reverse).tail

theorem split_ne_nil (bytes : List UInt8) : split bytes ≠ [] := by
  cases bytes with
  | nil => simp only [split, ne_eq, List.cons_ne_self, not_false_eq_true]
  | cons b bytes =>
    simp only [split]
    split
    · exact List.cons_ne_nil _ _
    · split <;> exact List.cons_ne_nil _ _

theorem segments_ne_nil (path : Path) : path.segments ≠ [] := split_ne_nil path.bytes

theorem intercalate_split (bytes : List UInt8) :
    [separator].intercalate (split bytes) = bytes := by
  induction bytes with
  | nil => rfl
  | cons b bytes ih =>
    simp only [split]
    split
    · rename_i hb
      subst hb
      rw [List.intercalate_cons_of_ne_nil (split_ne_nil bytes), ih]
      rfl
    · cases hs : split bytes with
      | nil => exact absurd hs (split_ne_nil bytes)
      | cons segment segments =>
        rw [hs] at ih
        cases segments with
        | nil =>
          simp only [List.intercalate_singleton] at ih ⊢
          rw [ih]
        | cons next segments =>
          rw [List.intercalate_cons_cons] at ih ⊢
          rw [← ih]
          rfl

theorem ofSegments_segments (path : Path) : ofSegments path.segments = path := by
  simp only [ofSegments, segments, intercalate_split]

end Path

end TestWrappers
