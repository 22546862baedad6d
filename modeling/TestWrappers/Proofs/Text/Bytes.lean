import TestWrappers.Text.Utf8

/-!
# Bytes of Characters

Which characters a byte of a text can come from.

A character below 128 is encoded as the one byte of its number, and all bytes of
the other characters are 128 or more. Looking for such a byte in the encoding of
a text is therefore looking for a character in the text, and exchanging one such
character for another exchanges one byte.

## Theorems

* `Utf8.encode_eq_flatMap`: The bytes of a text are those of its characters.
* `Utf8.mem_encodeChar_iff`: A byte below 128 is that character.
* `Utf8.encode_inj`: No two texts have the same bytes.
* `Utf8.decode?_eq_none_iff`: Bytes that cannot be read are those of no text.
-/

namespace TestWrappers

namespace Utf8

theorem encode_eq_flatMap (text : String) :
    encode text = text.toList.flatMap String.utf8EncodeChar := by
  have htext : text.toByteArray = (text.toList.flatMap String.utf8EncodeChar).toByteArray := by
    rw [← List.utf8Encode, String.utf8Encode_toList]
  unfold encode
  rw [String.toUTF8_eq_toByteArray, htext, List.data_toByteArray]

theorem encodeChar_of_lt {c : Char} (h : c.toNat < 128) :
    String.utf8EncodeChar c = [UInt8.ofNat c.toNat] := by
  have hval : c.val.toNat ≤ 0x7f := Nat.le_of_lt_succ h
  simp only [String.utf8EncodeChar, hval, ↓reduceIte]
  rfl

-- Every byte of a longer encoding has 128 added to what is left of the number.
theorem le_of_mem_encodeChar {c : Char} (h : 128 ≤ c.toNat) {b : UInt8}
    (hb : b ∈ String.utf8EncodeChar c) : 128 ≤ b.toNat := by
  have hval : ¬ c.val.toNat ≤ 0x7f := by
    have heq : c.toNat = c.val.toNat := rfl
    omega
  simp only [String.utf8EncodeChar, hval, ↓reduceIte] at hb
  split at hb
  · simp only [List.mem_cons, List.not_mem_nil, or_false] at hb
    rcases hb with rfl | rfl <;> simp only [UInt8.toNat_ofNat'] <;> omega
  · split at hb
    · simp only [List.mem_cons, List.not_mem_nil, or_false] at hb
      rcases hb with rfl | rfl | rfl <;> simp only [UInt8.toNat_ofNat'] <;> omega
    · simp only [List.mem_cons, List.not_mem_nil, or_false] at hb
      rcases hb with rfl | rfl | rfl | rfl <;> simp only [UInt8.toNat_ofNat'] <;> omega

/-- A byte below 128 stands in the encoding of one character only. -/
theorem mem_encodeChar_iff {b : UInt8} (hb : b.toNat < 128) (c : Char) :
    b ∈ String.utf8EncodeChar c ↔ c.toNat = b.toNat := by
  by_cases hc : c.toNat < 128
  · rw [encodeChar_of_lt hc, List.mem_singleton, ← UInt8.toNat_inj, UInt8.toNat_ofNat']
    omega
  · constructor
    · intro hmem
      have hle := le_of_mem_encodeChar (Nat.le_of_not_lt hc) hmem
      omega
    · intro heq
      omega

theorem encode_inj {a b : String} (h : encode a = encode b) : a = b := by
  -- Reading the bytes gives the text back.
  have hdecode := congrArg decode? h
  rw [decode?_encode, decode?_encode] at hdecode
  exact Option.some.inj hdecode

/-- Bytes that cannot be read are those of no text. -/
theorem decode?_eq_none_iff (bytes : List UInt8) :
    decode? bytes = none ↔ ∀ text, encode text ≠ bytes := by
  constructor
  · rintro h text rfl
    rw [decode?_encode] at h
    cases h
  · intro h
    refine Option.eq_none_iff_forall_ne_some.mpr fun text hread => ?_
    exact h text (encode_of_decode? hread)

end Utf8

end TestWrappers
