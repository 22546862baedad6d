/-!
# Offsets in a Text

Places in a text, counted in bytes.

A character takes from one to four bytes, so not every number is a place at which a text
can be cut: it may lie inside a character, or behind the end. A cut at such an offset is
refused, and so is taking a larger number from a smaller one. Neither is a fault of the
text. Whoever computed the offset made a slip, and computing without slips is what has to
be shown of a program that works with offsets.

Looking for a character gives the offset of its first byte. The byte behind it can be
inside the same character, so adding one to an offset is right only for characters of one
byte.

## Main definitions

* `Slip`: A wrong computation with offsets.
* `Offset.IsBoundary`: The offsets at which a text can be cut.
* `Offset.front`, `Offset.back`: The two parts of a text that is cut.
* `Offset.less`: The difference of two offsets.
* `Offset.indices`: The characters of a text and the offsets at which they begin.
* `Offset.find?`, `Offset.findLast?`: Where a character is.

## Theorems

* `Offset.isBoundary_iff`: A text can be cut where two texts are put together.
* `Offset.back_size`: What is left behind an offset is shorter by it.
-/

namespace TestWrappers

/-- A wrong computation with offsets. -/
inductive Slip where
  /-- A text is cut inside a character, or behind its end. -/
  | cut (text : String) (offset : Nat)
  /-- A number is taken from a smaller one. -/
  | below (number taken : Nat)
deriving DecidableEq, Repr

namespace Offset

/-- The offset lies between two characters of the text, or at one of its ends. -/
def IsBoundary (text : String) (offset : Nat) : Prop := (String.Pos.Raw.mk offset).IsValid text

instance (text : String) (offset : Nat) : Decidable (IsBoundary text offset) :=
  inferInstanceAs (Decidable ((String.Pos.Raw.mk offset).IsValid text))

/-- The part of a text in front of an offset. -/
def front (text : String) (offset : Nat) : Except Slip String :=
  if h : IsBoundary text offset then .ok (text.sliceTo (text.pos ⟨offset⟩ h)).copy
  else .error (.cut text offset)

/-- The part of a text behind an offset. -/
def back (text : String) (offset : Nat) : Except Slip String :=
  if h : IsBoundary text offset then .ok (text.sliceFrom (text.pos ⟨offset⟩ h)).copy
  else .error (.cut text offset)

/-- What is left of a number if another one is taken from it. -/
def less (number taken : Nat) : Except Slip Nat :=
  if taken ≤ number then .ok (number - taken) else .error (.below number taken)

/-- Characters with the offsets at which they begin, the first one at the given offset. -/
def indicesFrom (offset : Nat) : List Char → List (Nat × Char)
  | [] => []
  | c :: cs => (offset, c) :: indicesFrom (offset + c.utf8Size) cs

/-- The characters of a text with the offsets at which they begin. -/
def indices (text : String) : List (Nat × Char) := indicesFrom 0 text.toList

/-- Where a character stands in a text for the first time. -/
def find? (c : Char) (text : String) : Option Nat :=
  ((indices text).find? (·.2 == c)).map (·.1)

/-- Where a character stands in a text for the last time. -/
def findLast? (c : Char) (text : String) : Option Nat :=
  ((indices text).reverse.find? (·.2 == c)).map (·.1)

/-- The text behind a character, if that is what the text begins with. -/
def behind? (c : Char) (text : String) : Option String :=
  match text.toList with
  | [] => none
  | d :: cs => if d = c then some (String.ofList cs) else none

/-- A text can be cut where two texts were put together, and nowhere else. -/
theorem isBoundary_iff (text : String) (offset : Nat) :
    IsBoundary text offset ↔ ∃ a b, text = a ++ b ∧ offset = a.utf8ByteSize := by
  rw [IsBoundary, String.Pos.Raw.isValid_iff_exists_append]
  constructor
  · rintro ⟨a, b, htext, hoffset⟩
    exact ⟨a, b, htext, congrArg String.Pos.Raw.byteIdx hoffset⟩
  · rintro ⟨a, b, htext, hoffset⟩
    exact ⟨a, b, htext, String.Pos.Raw.ext hoffset⟩

theorem front_append (a b : String) : front (a ++ b) a.utf8ByteSize = .ok a := by
  have h : IsBoundary (a ++ b) a.utf8ByteSize := (isBoundary_iff _ _).mpr ⟨a, b, rfl, rfl⟩
  have hsplits : ((a ++ b).pos ⟨a.utf8ByteSize⟩ h).Splits a b := ⟨rfl, String.offset_pos⟩
  rw [front, dif_pos h, hsplits.copy_sliceTo_eq]

theorem back_append (a b : String) : back (a ++ b) a.utf8ByteSize = .ok b := by
  have h : IsBoundary (a ++ b) a.utf8ByteSize := (isBoundary_iff _ _).mpr ⟨a, b, rfl, rfl⟩
  have hsplits : ((a ++ b).pos ⟨a.utf8ByteSize⟩ h).Splits a b := ⟨rfl, String.offset_pos⟩
  rw [back, dif_pos h, hsplits.copy_sliceFrom_eq]

/-- What is left behind an offset is shorter by as much. -/
theorem back_size {text rest : String} {offset : Nat} (h : back text offset = .ok rest) :
    offset + rest.utf8ByteSize = text.utf8ByteSize := by
  by_cases hboundary : IsBoundary text offset
  · rcases (isBoundary_iff _ _).mp hboundary with ⟨a, b, rfl, rfl⟩
    rw [back_append, Except.ok.injEq] at h
    rw [String.utf8ByteSize_append, h]
  · rw [back, dif_neg hboundary] at h
    cases h

end Offset

end TestWrappers
