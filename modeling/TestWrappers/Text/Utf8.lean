/-!
# Bytes and Characters

Text as the bytes of its UTF-8 encoding, and bytes as text.

Names of files are bytes. Most of them are the encoding of some text and can be
read as that text without loss; `decode?` says which. The others still have to
be shown to a person, so `display` divides the bytes into the shortest stretches
that can be judged alone: a complete character, or the longest beginning of one
that its next byte does not continue. Every stretch of the second kind is shown
as one replacement character.

A character's first byte fixes how many bytes follow it and in which range the
second one lies. That range is what excludes overlong forms, surrogates and
numbers past the last character.

## Main definitions

* `Utf8.encode`: The bytes of a text.
* `Utf8.decode?`: The text that bytes encode, if they encode one.
* `Utf8.units`: The stretches of a sequence of bytes.
* `Utf8.display`: Bytes as text for a reader.

## Theorems

* `Utf8.decode?_encode`: A text can be read back from its bytes.
* `Utf8.encode_append`: The bytes of a text are those of its parts.
* `Utf8.encode_of_decode?`: Bytes that can be read are the bytes of what was
  read.
* `Utf8.display_encode`: The bytes of a text are shown as the text.
-/

namespace TestWrappers

namespace Utf8

/-- The bytes of a text. -/
def encode (text : String) : List UInt8 := text.toUTF8.data.toList

/-- The text that bytes encode, unless some stretch of them encodes no
    character. -/
def decode? (bytes : List UInt8) : Option String :=
  String.fromUTF8? ⟨bytes.toArray⟩

/-- How a character with a given first byte goes on: the number of bytes that
    follow, and the least and the greatest value of the first of them. -/
def continuation (lead : UInt8) : Nat × UInt8 × UInt8 :=
  if 0xC2 ≤ lead ∧ lead ≤ 0xDF then (1, 0x80, 0xBF)
  else if lead = 0xE0 then (2, 0xA0, 0xBF)
  else if lead = 0xED then (2, 0x80, 0x9F)
  else if 0xE1 ≤ lead ∧ lead ≤ 0xEF then (2, 0x80, 0xBF)
  else if lead = 0xF0 then (3, 0x90, 0xBF)
  else if 0xF1 ≤ lead ∧ lead ≤ 0xF3 then (3, 0x80, 0xBF)
  else if lead = 0xF4 then (3, 0x80, 0x8F)
  else (0, 0x80, 0xBF)

/-- The bytes at the front that continue a character: at most `count`, the
    first of them from `low` to `high`, and the others any continuation bytes. -/
def continuing : Nat → UInt8 → UInt8 → List UInt8 → List UInt8
  | count + 1, low, high, b :: bytes =>
    if low ≤ b ∧ b ≤ high then b :: continuing count 0x80 0xBF bytes else []
  | _, _, _, _ => []

/-- The bytes that continue the character whose first byte is given. -/
def tail (lead : UInt8) (bytes : List UInt8) : List UInt8 :=
  let (count, low, high) := continuation lead
  continuing count low high bytes

/-- The bytes divided into the stretches that are judged alone. -/
def units : List UInt8 → List (List UInt8)
  | [] => []
  | b :: bytes => (b :: tail b bytes) :: units (bytes.drop (tail b bytes).length)
termination_by bytes => bytes.length
decreasing_by
  simp only [List.length_drop, List.length_cons]
  omega

/-- Bytes as text. What is no text is shown stretch by stretch, those that
    encode nothing as replacement characters. -/
def display (bytes : List UInt8) : String :=
  match decode? bytes with
  | some text => text
  | none => String.join ((units bytes).map fun u => (decode? u).getD (String.singleton '\ufffd'))

theorem decode?_encode (text : String) : decode? (encode text) = some text := by
  simp only [decode?, encode, Array.toArray_toList, String.fromUTF8?]
  exact dif_pos text.isValidUTF8

theorem encode_of_decode? {bytes : List UInt8} {text : String} (h : decode? bytes = some text) :
    encode text = bytes := by
  simp only [decode?, String.fromUTF8?, Option.dite_none_right_eq_some, Option.some.injEq] at h
  obtain ⟨hvalid, rfl⟩ := h
  rfl

theorem encode_append (a b : String) : encode (a ++ b) = encode a ++ encode b := by
  simp only [encode, String.toUTF8_eq_toByteArray, String.toByteArray_append,
    ByteArray.data_append, Array.toList_append]

theorem display_encode (text : String) : display (encode text) = text := by
  simp only [display, decode?_encode]

end Utf8

end TestWrappers
