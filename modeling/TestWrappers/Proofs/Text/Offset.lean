import TestWrappers.Proofs.Text.Bytes
import TestWrappers.Text.Offset

/-!
# Finding by Offsets

Which offsets a search through a text gives.

The characters of a text are listed with the offsets at which they begin, and a character
begins where the characters in front of it end. So an offset that a search gives is the
size of a text in front of it, and it is a place to cut at whatever is around it. That is
also where the byte of the character stands in the encoding of the text.

## Theorems

* `Offset.isBoundary_append`: Between two texts the whole can be cut.
* `Offset.find?_indicesFrom`: The first character with a property.
* `Offset.find?_eq_some_iff`: What a search gives.
* `Offset.findLast?_append`: What a search from behind gives.
* `Offset.getElem?_encode`: The byte at the offset of a character.
-/

namespace TestWrappers

namespace Offset

variable {c : Char} {text : String} {offset : Nat}

theorem isBoundary_append (a b : String) : IsBoundary (a ++ b) a.utf8ByteSize :=
  (isBoundary_iff _ _).mpr ⟨a, b, rfl, rfl⟩

theorem isBoundary_zero (text : String) : IsBoundary text 0 := by
  have h := isBoundary_append "" text
  rwa [String.empty_append, String.utf8ByteSize_empty] at h

/-- An offset to cut at is in range. -/
theorem IsBoundary.le_size (h : IsBoundary text offset) : offset ≤ text.utf8ByteSize := by
  rcases (isBoundary_iff _ _).mp h with ⟨a, b, rfl, rfl⟩
  rw [String.utf8ByteSize_append]
  omega

theorem isBoundary_of_back {rest : String} (h : back text offset = .ok rest) :
    IsBoundary text offset := by
  unfold back at h
  split at h
  · rename_i hboundary
    exact hboundary
  · cases h

/-- Behind a character of one byte a text can be cut one byte further on. -/
theorem back_append_singleton (hc : c.utf8Size = 1) (a b : String) :
    IsBoundary (a ++ (String.singleton c ++ b)) (a.utf8ByteSize + 1) ∧
      back (a ++ (String.singleton c ++ b)) (a.utf8ByteSize + 1) = .ok b := by
  have hsize : (a ++ String.singleton c).utf8ByteSize = a.utf8ByteSize + 1 := by
    rw [String.utf8ByteSize_append, String.utf8ByteSize_singleton, hc]
  rw [← String.append_assoc, ← hsize]
  exact ⟨isBoundary_append _ _, back_append _ _⟩

theorem less_of_le {number taken : Nat} (h : taken ≤ number) :
    less number taken = .ok (number - taken) := if_pos h

/-- Only the empty text has no bytes. -/
theorem size_ofList_pos {cs : List Char} (h : cs ≠ []) : 0 < (String.ofList cs).utf8ByteSize := by
  refine Nat.pos_of_ne_zero fun hzero => h ?_
  rw [String.utf8ByteSize_eq_zero_iff, ← String.ofList_nil, String.ofList_inj] at hzero
  exact hzero

/-- Behind a text its characters go on with larger offsets. -/
theorem indicesFrom_append (offset : Nat) (a b : List Char) :
    indicesFrom offset (a ++ b) =
      indicesFrom offset a ++ indicesFrom (offset + (String.ofList a).utf8ByteSize) b := by
  induction a generalizing offset with
  | nil => rfl
  | cons d a ih =>
    rw [List.cons_append, indicesFrom, indicesFrom, ih, String.ofList_cons,
      String.utf8ByteSize_append, String.utf8ByteSize_singleton, Nat.add_assoc, List.cons_append]

theorem mem_of_mem_indicesFrom {entry : Nat × Char} {cs : List Char}
    (h : entry ∈ indicesFrom offset cs) : entry.2 ∈ cs := by
  induction cs generalizing offset with
  | nil => exact absurd h List.not_mem_nil
  | cons d cs ih =>
    rcases List.mem_cons.mp h with rfl | hmem
    · exact List.mem_cons_self
    · exact List.mem_cons_of_mem d (ih hmem)

theorem find?_indicesFrom_eq_none {p : Char → Bool} {cs : List Char}
    (h : ∀ d ∈ cs, p d = false) (offset : Nat) :
    (indicesFrom offset cs).find? (p ·.2) = none :=
  List.find?_eq_none.mpr fun _ hentry =>
    Bool.eq_false_iff.mp (h _ (mem_of_mem_indicesFrom hentry))

/-- The first character with a property begins where those without it end. -/
theorem find?_indicesFrom {p : Char → Bool} {a : List Char} (h : ∀ d ∈ a, p d = false)
    (hc : p c = true) (b : List Char) (offset : Nat) :
    ((indicesFrom offset (a ++ c :: b)).find? (p ·.2)).map (·.1) =
      some (offset + (String.ofList a).utf8ByteSize) := by
  have hfirst : ∀ offset, (indicesFrom offset (c :: b)).find? (p ·.2) = some (offset, c) :=
    fun _ => List.find?_cons_of_pos hc
  rw [indicesFrom_append, List.find?_append, find?_indicesFrom_eq_none h, Option.none_or, hfirst]
  rfl

theorem beq_eq_false_of_notMem {cs : List Char} (h : c ∉ cs) : ∀ d ∈ cs, (d == c) = false :=
  fun _ hd => beq_eq_false_iff_ne.mpr fun heq => h (heq ▸ hd)

theorem find?_of_notMem (h : c ∉ text.toList) : find? c text = none := by
  rw [find?, indices, find?_indicesFrom_eq_none (p := (· == c)) (beq_eq_false_of_notMem h)]
  rfl

theorem find?_append {a : String} (h : c ∉ a.toList) (b : String) :
    find? c (a ++ (String.singleton c ++ b)) = some a.utf8ByteSize := by
  have hfirst := find?_indicesFrom (p := (· == c)) (beq_eq_false_of_notMem h) BEq.rfl b.toList 0
  rw [String.ofList_toList, Nat.zero_add] at hfirst
  rw [find?, indices, String.toList_append, String.toList_append, String.toList_singleton,
    List.singleton_append, hfirst]

/-- In front of a character of a text there is a part that it is not in. -/
theorem exists_append_of_mem (h : c ∈ text.toList) :
    ∃ a b, text = a ++ (String.singleton c ++ b) ∧ c ∉ a.toList := by
  rcases List.eq_append_cons_of_mem h with ⟨a, b, htext, ha⟩
  refine ⟨String.ofList a, String.ofList b, ?_, by rwa [String.toList_ofList]⟩
  rw [← String.ofList_cons, ← String.ofList_append, ← htext, String.ofList_toList]

/-- A character stands for the first time behind a text that it is not in. -/
theorem find?_eq_some_iff (c : Char) (text : String) (offset : Nat) :
    find? c text = some offset ↔
      ∃ a b, text = a ++ (String.singleton c ++ b) ∧ c ∉ a.toList ∧ offset = a.utf8ByteSize := by
  constructor
  · intro h
    have hmem : c ∈ text.toList := Decidable.byContradiction fun hnot => by
      rw [find?_of_notMem hnot] at h
      cases h
    rcases exists_append_of_mem hmem with ⟨a, b, htext, ha⟩
    rw [htext, find?_append ha, Option.some.injEq] at h
    exact ⟨a, b, htext, ha, h.symm⟩
  · rintro ⟨a, b, rfl, ha, rfl⟩
    exact find?_append ha b

theorem find?_reverse_eq_none {cs : List Char} (h : c ∉ cs) (offset : Nat) :
    (indicesFrom offset cs).reverse.find? (·.2 == c) = none :=
  List.find?_eq_none.mpr fun _ hentry heq =>
    h (beq_iff_eq.mp heq ▸ mem_of_mem_indicesFrom (List.mem_reverse.mp hentry))

theorem findLast?_of_notMem (h : c ∉ text.toList) : findLast? c text = none := by
  rw [findLast?, indices, find?_reverse_eq_none h]
  rfl

/-- A character stands for the last time in front of a text that it is not in. -/
theorem findLast?_append (a : String) {b : String} (h : c ∉ b.toList) :
    findLast? c (a ++ (String.singleton c ++ b)) = some a.utf8ByteSize := by
  -- Seen from behind, the character is the first one that is found.
  have hfirst : ∀ offset more,
      ((offset, c) :: more).find? (fun entry : Nat × Char => entry.2 == c) = some (offset, c) :=
    fun _ _ => List.find?_cons_of_pos BEq.rfl
  unfold findLast? indices
  rw [String.toList_append, String.toList_append, String.toList_singleton, List.singleton_append,
    indicesFrom_append, indicesFrom, List.reverse_append, List.reverse_cons, List.append_assoc,
    List.find?_append, find?_reverse_eq_none h, Option.none_or, List.singleton_append, hfirst,
    Option.map_some, String.ofList_toList, Nat.zero_add]

/-- No text has more characters than bytes. -/
theorem length_toList_le_size (text : String) : text.toList.length ≤ text.utf8ByteSize := by
  have h : ∀ cs : List Char, cs.length ≤ (String.ofList cs).utf8ByteSize := by
    intro cs
    induction cs with
    | nil => exact Nat.zero_le _
    | cons c cs ih =>
      have hc := c.utf8Size_pos
      rw [List.length_cons, String.ofList_cons, String.utf8ByteSize_append,
        String.utf8ByteSize_singleton]
      omega
  have htext := h text.toList
  rwa [String.ofList_toList] at htext

/-- The size of a text is the number of bytes of its encoding. -/
theorem length_encode (text : String) : (Utf8.encode text).length = text.utf8ByteSize := by
  rw [Utf8.encode, Array.length_toList]
  rfl

/-- At the offset of a character stands the first byte of its encoding. -/
theorem getElem?_encode (a b : String) (h : c.toNat < 128) :
    (Utf8.encode (a ++ (String.singleton c ++ b)))[a.utf8ByteSize]? =
      some (UInt8.ofNat c.toNat) := by
  have hc : Utf8.encode (String.singleton c) = [UInt8.ofNat c.toNat] := by
    rw [Utf8.encode_eq_flatMap, String.toList_singleton, List.flatMap_singleton,
      Utf8.encodeChar_of_lt h]
  rw [Utf8.encode_append, Utf8.encode_append, hc, ← length_encode,
    List.getElem?_append_right (Nat.le_refl _), Nat.sub_self]
  rfl

end Offset

end TestWrappers
