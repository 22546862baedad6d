import TestWrappers.FileSystem.Name
import TestWrappers.Proofs.Text.Bytes
import TestWrappers.Wrapper

/-!
# Names of Wrapper Files

The file of a wrapper, as bytes.

The name of the file is the name of the test case with a fixed beginning and a
fixed end, and every hyphen exchanged for an underscore. Both are single bytes,
so the exchange is made byte by byte and keeps the length. The name of a
directory therefore makes the name of a file, unless it gets too long by the
twelve bytes around it.

## Main definitions

* `TestCase.classByte`: A byte of the name as it stands in the name of the file.

## Theorems

* `TestCase.encode_fileName`: The bytes of the name of a file.
* `TestCase.length_encode_fileName`: It is twelve bytes longer.
* `TestCase.fileName_eq_iff`: Which test cases share a file.
-/

namespace TestWrappers

namespace TestCase

/-- A byte of the name as it stands in the name of the file. -/
def classByte (b : UInt8) : UInt8 := if b = 0x2D then 0x5F else b

theorem encodeChar_classChar (c : Char) :
    String.utf8EncodeChar (classChar c) = (String.utf8EncodeChar c).map classByte := by
  by_cases hc : c = '-'
  · rw [hc]
    decide
  · -- No other character has the byte of a hyphen in its encoding.
    have hkeep : ∀ b ∈ String.utf8EncodeChar c, classByte b = b := by
      intro b hb
      refine if_neg fun heq => hc ?_
      rw [heq, Utf8.mem_encodeChar_iff (by decide)] at hb
      exact Char.toNat_inj.mp hb
    rw [classChar, if_neg hc, List.map_congr_left hkeep, List.map_id']

theorem encode_fileName (test : TestCase) :
    Utf8.encode test.fileName =
      Utf8.encode "Art" ++ (Utf8.encode test.name).map classByte ++ Utf8.encode "Test.java" := by
  have hmiddle : Utf8.encode (String.ofList (test.name.toList.map classChar)) =
      (Utf8.encode test.name).map classByte := by
    rw [Utf8.encode_eq_flatMap, Utf8.encode_eq_flatMap, String.toList_ofList, List.flatMap_map,
      List.map_flatMap]
    simp only [encodeChar_classChar]
  have hend : Utf8.encode "Test" ++ (Utf8.encode "." ++ Utf8.encode extension) =
      Utf8.encode "Test.java" := rfl
  unfold fileName className
  simp only [Utf8.encode_append, hmiddle, List.append_assoc, hend]

theorem length_encode_fileName (test : TestCase) :
    (Utf8.encode test.fileName).length = (Utf8.encode test.name).length + 12 := by
  have hfront : (Utf8.encode "Art").length = 3 := rfl
  have hend : (Utf8.encode "Test.java").length = 9 := rfl
  rw [encode_fileName, List.length_append, List.length_append, List.length_map, hfront, hend]
  omega

-- Neither the fixed parts nor the exchange add a byte that no name may have.
theorem notMem_encode_fileName {b : UInt8} {test : TestCase} (h : b ∉ Utf8.encode test.name)
    (hfront : b ∉ Utf8.encode "Art") (hend : b ∉ Utf8.encode "Test.java") (hclass : b ≠ 0x5F) :
    b ∉ Utf8.encode test.fileName := by
  rw [encode_fileName]
  intro hmem
  rcases List.mem_append.mp hmem with hfirst | hlast
  · rcases List.mem_append.mp hfirst with hart | hname
    · exact hfront hart
    · rcases List.mem_map.mp hname with ⟨old, hold, heq⟩
      unfold classByte at heq
      split at heq
      · exact hclass heq.symm
      · exact h (heq ▸ hold)
  · exact hend hlast

/-- The name of a directory makes the name of a file, if there is room for it. -/
theorem valid_fileName {test : TestCase} (h : Name.Valid (Utf8.encode test.name)) :
    Path.separator ∉ Utf8.encode test.fileName ∧ 0 ∉ Utf8.encode test.fileName ∧
      Utf8.encode test.fileName ≠ [] ∧
      (Name.Valid (Utf8.encode test.fileName) ↔
        (Utf8.encode test.name).length + 12 ≤ Name.maxLength) := by
  rcases h with ⟨_, _, _, hsep, hzero, _⟩
  have hlength := length_encode_fileName test
  have hsep' : Path.separator ∉ Utf8.encode test.fileName :=
    notMem_encode_fileName hsep (by decide) (by decide) (by decide)
  have hzero' : 0 ∉ Utf8.encode test.fileName :=
    notMem_encode_fileName hzero (by decide) (by decide) (by decide)
  have hlong : ∀ bytes : List UInt8, bytes.length < 12 → Utf8.encode test.fileName ≠ bytes := by
    intro bytes hbytes heq
    rw [heq] at hlength
    omega
  refine ⟨hsep', hzero', hlong [] (by decide), ?_⟩
  unfold Name.Valid
  rw [hlength]
  constructor
  · intro hvalid
    exact hvalid.2.2.2.2.2
  · intro hfits
    exact ⟨hlong [] (by decide), hlong _ (by decide), hlong _ (by decide), hsep', hzero', hfits⟩

/-- Two test cases share a file exactly if their names agree up to hyphens and
    underscores. -/
theorem fileName_eq_iff (a b : TestCase) :
    a.fileName = b.fileName ↔ a.name.toList.map classChar = b.name.toList.map classChar := by
  unfold fileName className
  constructor
  · intro h
    have hchars := congrArg String.toList h
    simp only [String.toList_append, String.toList_ofList, List.append_assoc] at hchars
    -- The parts in front and behind are the same for all test cases.
    have hrest := List.append_cancel_left hchars
    exact (List.append_inj' hrest rfl).1
  · intro h
    rw [h]

end TestCase

end TestWrappers
