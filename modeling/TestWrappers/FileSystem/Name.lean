import TestWrappers.Path

/-!
# Names and Locations

What the entries of a file system are called, and where they are.

A name is a segment of a path that is neither empty nor made of dots for
staying or climbing, and that is not too long. These are conditions on the
bytes alone, so they are part of the type and every entry meets them.

A location is the names on the way from an entry up to the root, its own name
first. The directory around an entry is then the tail of its location, and the
entries inside a directory are those whose locations end in its own. Locations
hold no links and no dots: a path leads to a location, and several paths may
lead to the same one.

## Main definitions

* `Name`: The name of an entry.
* `Name.ofBytes?`: Bytes as a name.
* `Location`: The place of an entry.
* `Location.isWithin`: A location at another one or inside it.

## Theorems

* `Location.isWithin_iff`: One location ends in the other.
* `Location.isWithin_tail`: What is inside an entry is inside the directory
  around it.
-/

namespace TestWrappers

namespace Name

/-- The greatest number of bytes of a name. -/
def maxLength : Nat := 255

/-- The bytes can be the name of an entry. -/
def Valid (bytes : List UInt8) : Prop :=
  bytes ≠ [] ∧ bytes ≠ [Path.dot] ∧ bytes ≠ [Path.dot, Path.dot] ∧
    Path.separator ∉ bytes ∧ 0 ∉ bytes ∧ bytes.length ≤ maxLength

instance (bytes : List UInt8) : Decidable (Valid bytes) :=
  inferInstanceAs (Decidable (_ ∧ _))

end Name

/-- The name of an entry. -/
structure Name where
  /-- The bytes of the name. -/
  bytes : List UInt8
  /-- They can be a name. -/
  valid : Name.Valid bytes
deriving DecidableEq

namespace Name

/-- Bytes as a name, if they can be one. -/
def ofBytes? (bytes : List UInt8) : Option Name :=
  if h : Valid bytes then some ⟨bytes, h⟩ else none

theorem eq_of_bytes_eq {a b : Name} (h : a.bytes = b.bytes) : a = b := by
  cases a
  cases b
  rw [mk.injEq]
  exact h

theorem ofBytes?_bytes (name : Name) : ofBytes? name.bytes = some name := dif_pos name.valid

theorem ofBytes?_eq_some_iff {bytes : List UInt8} {name : Name} :
    ofBytes? bytes = some name ↔ name.bytes = bytes := by
  constructor
  · intro h
    simp only [ofBytes?, Option.dite_none_right_eq_some, Option.some.injEq] at h
    obtain ⟨_, rfl⟩ := h
    rfl
  · intro h
    rw [← h, ofBytes?_bytes]

end Name

/-- The place of an entry: its name, the name of the directory around it, and
    so on up to the root, which is the empty list. -/
abbrev Location := List Name

namespace Location

/-- The location is the other one or inside it. -/
def isWithin (inner outer : Location) : Bool := outer.isSuffixOf inner

theorem isWithin_iff {inner outer : Location} : isWithin inner outer = true ↔ outer <:+ inner :=
  List.isSuffixOf_iff_suffix

theorem isWithin_refl (place : Location) : isWithin place place = true :=
  isWithin_iff.mpr (List.suffix_refl place)

theorem isWithin_cons {inner outer : Location} (name : Name) (h : isWithin inner outer = true) :
    isWithin (name :: inner) outer = true :=
  isWithin_iff.mpr ((isWithin_iff.mp h).trans (List.suffix_cons name inner))

theorem isWithin_tail {name : Name} {inner outer : Location}
    (h : isWithin inner (name :: outer) = true) : isWithin inner outer = true :=
  isWithin_iff.mpr ((List.suffix_cons name outer).trans (isWithin_iff.mp h))

theorem isWithin_cons_iff {name : Name} {inner outer : Location} :
    isWithin (name :: inner) outer = true ↔
      outer = name :: inner ∨ isWithin inner outer = true := by
  rw [isWithin_iff, isWithin_iff, List.suffix_cons_iff]

end Location

end TestWrappers
