import TestWrappers.Proofs.Template.Grammar
import TestWrappers.Proofs.Text.Lines
import TestWrappers.Proofs.Text.Offset
import TestWrappers.Template.Cursor

/-!
# Reading by Offsets

What is computed with offsets at a dollar sign is what is read there.

Reading goes by characters, and what it gives has a size in bytes. Computing goes the
other way: the size of the name is found first, and the name is cut out by it. The two meet
in `nameSize_eq`. A name ends in front of the first character that is no part of it, however
many bytes that one takes, or at the end of the text. So its size is a place to cut at,
which nothing about the bytes of a name has to be known for. Signs and braces are one byte
each, and are counted as such.

Where nothing can be read, the position of the sign is computed from its offset. The last
line break in front of it is one byte too, so the line begins one byte behind that.

## Main definitions

* `Cursor.measured`: A placeholder and the size of what it is written with.

## Theorems

* `Cursor.nameSize_eq`: The size of a name is that of the characters read as one.
* `Cursor.isBoundary_nameSize`: Behind a name there is a place to cut.
* `Cursor.announced_eq`: What is announced is what is read.
* `Cursor.exists_lineStart`: Where the last line begins.
* `Cursor.position_append`: The position of an offset.
-/

namespace TestWrappers

theorem Identifier.IsName.ne_nil {name : List Char} (h : IsName name) : name ≠ [] := by
  rintro rfl
  exact h

/-- A placeholder that is read is written with at least one character. -/
theorem Placeholder.written_ne_nil {cs more : List Char} {p : Placeholder}
    (h : read? cs = some (p, more)) : p.written ≠ [] := by
  rcases read?_cases h with ⟨rfl, _⟩ | ⟨name, hname, ⟨rfl, _⟩ | ⟨rfl, _⟩⟩
  · exact List.cons_ne_nil _ _
  · exact hname.ne_nil
  · exact List.cons_ne_nil _ _

/-- A text that a placeholder is read from begins with what that is written with. -/
theorem Placeholder.eq_append_of_read? {text : String} {p : Placeholder} {more : List Char}
    (h : read? text.toList = some (p, more)) :
    text = String.ofList p.written ++ String.ofList more := by
  rw [← String.ofList_append, read?_written h, String.ofList_toList]

namespace Template

namespace Cursor

variable {cs name more : List Char}

/-- The size of a name is that of the characters that are read as one. -/
theorem nameSize_eq (text : String) :
    nameSize text =
      ((Placeholder.readName? text.toList).map fun found =>
        (String.ofList found.1).utf8ByteSize).getD 0 := by
  unfold nameSize Offset.indices
  cases htext : text.toList with
  | nil => rfl
  | cons c cs =>
    rw [Offset.indicesFrom, Placeholder.readName?, Nat.zero_add]
    dsimp only
    by_cases hc : Identifier.isStart c = true
    · rw [if_pos hc, if_pos hc, Option.map_some, Option.getD_some, String.ofList_cons,
        String.utf8ByteSize_append, String.utf8ByteSize_singleton]
      have hsplit := List.takeWhile_append_dropWhile (p := Identifier.isPart) (l := cs)
      have hparts : ∀ d ∈ cs.takeWhile Identifier.isPart, (!Identifier.isPart d) = false :=
        fun d hd => congrArg (!·) (List.all_eq_true.mp List.all_takeWhile d hd)
      cases hdrop : cs.dropWhile Identifier.isPart with
      | nil =>
        -- The name goes up to the end of the text.
        rw [hdrop, List.append_nil] at hsplit
        rw [hsplit] at hparts ⊢
        have hwhole : text = String.singleton c ++ String.ofList cs := by
          rw [← String.ofList_cons, ← htext, String.ofList_toList]
        rw [Offset.find?_indicesFrom_eq_none (p := (!Identifier.isPart ·)) hparts, hwhole,
          String.utf8ByteSize_append, String.utf8ByteSize_singleton]
        rfl
      | cons d rest =>
        have hd : (!Identifier.isPart d) = true := by
          have hnot := List.head?_dropWhile_not Identifier.isPart cs
          rw [hdrop] at hnot
          exact congrArg (!·) hnot
        have hfirst := Offset.find?_indicesFrom (p := (!Identifier.isPart ·)) hparts hd rest
          c.utf8Size
        rw [← hdrop, hsplit] at hfirst
        rw [hfirst, Option.getD_some]
    · rw [if_neg hc, if_neg hc]
      rfl

/-- Where a text begins with a name, it is cut behind that. -/
theorem cut_nameSize (h : Placeholder.readName? cs = some (name, more)) :
    0 < nameSize (String.ofList cs) ∧
      nameSize (String.ofList cs) = (String.ofList name).utf8ByteSize ∧
      Offset.front (String.ofList cs) (nameSize (String.ofList cs)) = .ok (String.ofList name) ∧
      Offset.back (String.ofList cs) (nameSize (String.ofList cs)) = .ok (String.ofList more) := by
  have hsize : nameSize (String.ofList cs) = (String.ofList name).utf8ByteSize := by
    rw [nameSize_eq, String.toList_ofList, h]
    rfl
  have hpos : 0 < (String.ofList name).utf8ByteSize :=
    Offset.size_ofList_pos (Placeholder.isName_of_readName? h).1.ne_nil
  have htext : String.ofList cs = String.ofList name ++ String.ofList more := by
    rw [← String.ofList_append, Placeholder.readName?_append h]
  refine ⟨hsize ▸ hpos, hsize, ?_, ?_⟩
  · rw [hsize, htext, Offset.front_append]
  · rw [hsize, htext, Offset.back_append]

theorem nameSize_of_none (h : Placeholder.readName? cs = none) :
    nameSize (String.ofList cs) = 0 := by
  rw [nameSize_eq, String.toList_ofList, h]
  rfl

/-- There is a place to cut behind the name that a text begins with. -/
theorem isBoundary_nameSize (text : String) : Offset.IsBoundary text (nameSize text) := by
  rw [nameSize_eq]
  cases hread : Placeholder.readName? text.toList with
  | none => exact Offset.isBoundary_zero text
  | some found =>
    have htext : text = String.ofList found.1 ++ String.ofList found.2 := by
      rw [← String.ofList_append, Placeholder.readName?_append hread, String.ofList_toList]
    rw [htext]
    exact Offset.isBoundary_append _ _

theorem behind?_ofList_cons (c d : Char) (cs : List Char) :
    Offset.behind? c (String.ofList (d :: cs)) =
      if d = c then some (String.ofList cs) else none := by
  rw [Offset.behind?, String.toList_ofList]

theorem size_braced (name : List Char) :
    (String.ofList (Placeholder.braced name).written).utf8ByteSize =
      (String.ofList name).utf8ByteSize + 2 := by
  rw [Placeholder.written, String.ofList_cons, String.ofList_append, String.utf8ByteSize_append,
    String.utf8ByteSize_append, Nat.add_comm]
  rfl

/-- A placeholder that is read, and the size of what it is written with. -/
def measured (p : Placeholder) : Placeholder × Nat := (p, (String.ofList p.written).utf8ByteSize)

theorem bareName_eq (cs : List Char) :
    bareName (String.ofList cs) =
      .ok ((Placeholder.readName? cs).map fun found => measured (.bare found.1)) := by
  unfold bareName
  cases hread : Placeholder.readName? cs with
  | none =>
    rw [nameSize_of_none hread]
    rfl
  | some found =>
    rcases cut_nameSize hread with ⟨hpos, hsize, hfront, _⟩
    dsimp only
    rw [if_pos hpos, hfront, hsize]
    simp only [bind, Except.bind, pure, Except.pure, String.toList_ofList, Option.map_some]
    rfl

theorem bracedName_eq (cs : List Char) :
    bracedName (String.ofList cs) =
      .ok ((Placeholder.read? ('\x7b' :: cs)).map fun found => measured found.1) := by
  rw [Placeholder.read?]
  unfold bracedName
  cases hread : Placeholder.readName? cs with
  | none =>
    rw [nameSize_of_none hread]
    rfl
  | some found =>
    rcases found with ⟨name, behind⟩
    rcases cut_nameSize hread with ⟨hpos, hsize, hfront, hback⟩
    dsimp only
    rw [if_pos hpos, hback, hfront, hsize, ← size_braced]
    cases behind with
    | nil => rfl
    | cons d behind =>
      simp only [bind, Except.bind, pure, Except.pure, behind?_ofList_cons]
      by_cases hd : d = '\x7d'
      · subst hd
        simp only [↓reduceIte, Option.isSome_some, String.toList_ofList]
        rfl
      · -- The name is not followed by the brace that would close it.
        rw [if_neg hd, Option.isSome_none, if_neg Bool.false_ne_true]
        split
        · rename_i heq
          cases heq
          exact absurd rfl hd
        · rfl

theorem read?_cons_of_ne {c : Char} (hdollar : c ≠ '$') (hbrace : c ≠ '\x7b') (cs : List Char) :
    Placeholder.read? (c :: cs) =
      (Placeholder.readName? (c :: cs)).map fun found => (.bare found.1, found.2) := by
  unfold Placeholder.read?
  split
  · rename_i heq
    exact absurd (List.cons.inj heq).1 hdollar
  · rename_i heq
    exact absurd (List.cons.inj heq).1 hbrace
  · rfl

/-- What is announced behind a dollar sign is what is read there, and its size is that of
    what it is written with. -/
theorem announced_eq (after : String) :
    announced after =
      .ok ((Placeholder.read? after.toList).map fun found => measured found.1) := by
  have hafter : after = String.ofList after.toList := String.ofList_toList.symm
  generalize after.toList = cs at hafter
  subst hafter
  unfold announced
  cases cs with
  | nil => rfl
  | cons c cs =>
    rw [behind?_ofList_cons, behind?_ofList_cons]
    by_cases hdollar : c = '$'
    · subst hdollar
      rfl
    · by_cases hbrace : c = '\x7b'
      · subst hbrace
        exact bracedName_eq cs
      · rw [if_neg hdollar, if_neg hbrace, read?_cons_of_ne hdollar hbrace, Option.map_map]
        exact bareName_eq (c :: cs)

/-- The line that a text ends in begins behind its last line break. -/
theorem exists_lineStart (before : String) :
    ∃ earlier, before = earlier ++ String.ofList (Position.lastLine before.toList) ∧
      lineStart before = earlier.utf8ByteSize := by
  have hlast := Position.newline_notMem_lastLine before.toList
  rcases Position.eq_lastLine_or_append before.toList with heq | ⟨earlier, heq⟩
  · refine ⟨"", ?_, ?_⟩
    · rw [← heq, String.ofList_toList, String.empty_append]
    · rw [← heq] at hlast
      rw [lineStart, Offset.findLast?_of_notMem hlast]
      rfl
  · generalize Position.lastLine before.toList = last at hlast heq ⊢
    have hbefore : before =
        String.ofList earlier ++ (String.singleton '\n' ++ String.ofList last) := by
      rw [← String.ofList_cons, ← String.ofList_append, ← heq, String.ofList_toList]
    have hnot : '\n' ∉ (String.ofList last).toList := by rwa [String.toList_ofList]
    refine ⟨String.ofList earlier ++ String.singleton '\n', ?_, ?_⟩
    · rw [String.append_assoc]
      exact hbefore
    · -- A line break is one byte long.
      rw [lineStart, hbefore, Offset.findLast?_append _ hnot, String.utf8ByteSize_append]
      rfl

/-- The position of an offset is that behind the text in front of it. -/
theorem position_append (a b : String) :
    position (a ++ b) a.utf8ByteSize = .ok (Position.after a.toList) := by
  rcases exists_lineStart a with ⟨earlier, ha, hstart⟩
  have hback : Offset.back a (lineStart a) =
      .ok (String.ofList (Position.lastLine a.toList)) := by
    rw [hstart]
    exact (congrArg (Offset.back · _) ha).trans (Offset.back_append _ _)
  rw [position, Offset.front_append]
  simp only [bind, Except.bind, pure, Except.pure, hback, Position.after, Nat.add_comm 1,
    ← String.length_toList, String.toList_ofList]

/-- No number in a position is larger than the text in front of it and one more. -/
theorem position_le (before : String) :
    (Position.after before.toList).line ≤ before.utf8ByteSize + 1 ∧
      (Position.after before.toList).column ≤ before.utf8ByteSize + 1 := by
  have hline := List.count_le_length (a := '\n') (l := before.toList)
  have hlength := Offset.length_toList_le_size before
  rcases exists_lineStart before with ⟨earlier, hbefore, _⟩
  have hcolumn :=
    Offset.length_toList_le_size (String.ofList (Position.lastLine before.toList))
  have hsize := congrArg String.utf8ByteSize hbefore
  rw [String.toList_ofList] at hcolumn
  rw [String.utf8ByteSize_append] at hsize
  unfold Position.after
  dsimp only
  omega

end Cursor

end Template

end TestWrappers
