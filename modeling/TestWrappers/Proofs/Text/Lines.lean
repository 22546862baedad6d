import TestWrappers.Text.Position

/-!
# Lines and Positions

Where a character stands among the lines of its text.

A position is counted from the text in front of it: its line breaks give the line,
and what stands behind the last of them gives the column. The lines of a text are
the stretches between line breaks. So a character that is no line break stands in
the line that the text in front of it leaves unfinished, right behind what is there
of this line already.

## Main definitions

* `Position.lines`: The lines of a text.

## Theorems

* `Position.eq_lastLine_or_append`: What stands in front of the last line.
* `Position.after_append`: A position in a text that stands behind another one.
* `Position.length_lines`: A text has one line more than line breaks.
* `Position.exists_lines_append_cons`: The line and the column of a character.
-/

namespace TestWrappers

namespace Position

/-- The lines of a text. -/
def lines (text : List Char) : List (List Char) := text.splitOn '\n'

theorem newline_notMem_lastLine (text : List Char) : '\n' ∉ lastLine text := by
  intro hmem
  have hall := List.all_eq_true.mp (List.all_takeWhile (p := (· != '\n'))) '\n'
    (List.mem_reverse.mp hmem)
  exact absurd hall (by decide)

/-- A text is its last line, or there is a line break in front of that. -/
theorem eq_lastLine_or_append (text : List Char) :
    text = lastLine text ∨ ∃ front, text = front ++ '\n' :: lastLine text := by
  have hsplit := List.takeWhile_append_dropWhile (p := (· != '\n')) (l := text.reverse)
  have hstop := List.head?_dropWhile_not (· != '\n') text.reverse
  cases hdrop : text.reverse.dropWhile (· != '\n') with
  | nil =>
    rw [hdrop, List.append_nil] at hsplit
    rw [lastLine, hsplit, List.reverse_reverse]
    exact Or.inl rfl
  | cons c rest =>
    -- What ends the last line, seen from behind, is a line break.
    rw [hdrop] at hsplit hstop
    have hc : c = '\n' := bne_eq_false_iff_eq.mp hstop
    have htext := congrArg List.reverse hsplit
    rw [List.reverse_reverse, List.reverse_append, List.reverse_cons, List.append_assoc,
      hc] at htext
    exact Or.inr ⟨rest.reverse, htext.symm⟩

theorem lastLine_append_of_notMem {text : List Char} (h : '\n' ∉ text) (front : List Char) :
    lastLine (front ++ text) = lastLine front ++ text := by
  have hall : ∀ c ∈ text.reverse, (c != '\n') = true := fun c hc =>
    bne_iff_ne.mpr fun heq => h (heq ▸ List.mem_reverse.mp hc)
  unfold lastLine
  rw [List.reverse_append, List.takeWhile_append_of_pos hall, List.reverse_append,
    List.reverse_reverse]

/-- Behind a line break only what follows it counts. -/
theorem lastLine_append_of_mem {text : List Char} (h : '\n' ∈ text) (front : List Char) :
    lastLine (front ++ text) = lastLine text := by
  rcases eq_lastLine_or_append text with heq | ⟨earlier, heq⟩
  · rw [heq] at h
    exact absurd h (newline_notMem_lastLine text)
  · have hlast := newline_notMem_lastLine text
    generalize lastLine text = last at heq hlast ⊢
    have hbreak : lastLine (front ++ earlier ++ ['\n']) = [] := by
      unfold lastLine
      rw [List.reverse_append]
      rfl
    have hwhole : front ++ text = front ++ earlier ++ ['\n'] ++ last := by
      rw [heq]
      simp only [List.append_assoc, List.singleton_append]
    rw [hwhole, lastLine_append_of_notMem hlast, hbreak, List.nil_append]

/-- A position in a text that stands behind another one: as many lines further down,
    and further to the right as long as it is in the line that the other text leaves
    unfinished. -/
theorem after_append (front text : List Char) :
    after (front ++ text) =
      ⟨(after text).line + front.count '\n',
        if (after text).line = 1 then (after text).column + (lastLine front).length
        else (after text).column⟩ := by
  unfold after
  dsimp only
  rw [List.count_append]
  by_cases hmem : '\n' ∈ text
  · have hcount := List.count_pos_iff.mpr hmem
    rw [lastLine_append_of_mem hmem, if_neg (by omega), mk.injEq]
    omega
  · rw [lastLine_append_of_notMem hmem, List.count_eq_zero_of_not_mem hmem, if_pos rfl, mk.injEq,
      List.length_append]
    have htext : lastLine text = text :=
      (lastLine_append_of_notMem hmem []).trans (List.nil_append _)
    rw [htext]
    omega

/-- A text without line breaks goes in front of the first line of another one. -/
theorem lines_append_of_notMem {front : List Char} (h : '\n' ∉ front) (text : List Char) :
    lines (front ++ text) = (lines text).modifyHead (front ++ ·) := by
  unfold lines
  induction front with
  | nil => exact (congrFun List.modifyHead_id _).symm
  | cons c front ih =>
    have hc : ¬ (c == '\n') = true := fun heq => h (beq_iff_eq.mp heq ▸ List.mem_cons_self)
    rw [List.cons_append, List.splitOn_cons_eq_if_modifyHead, if_neg hc,
      ih fun hmem => h (List.mem_cons_of_mem c hmem), List.modifyHead_modifyHead]
    rfl

/-- Texts without line breaks that are each followed by one are lines. -/
theorem lines_flatMap {α : Type} {text : α → List Char} {all : List α}
    (h : ∀ a ∈ all, '\n' ∉ text a) (rest : List Char) :
    lines ((all.flatMap fun a => text a ++ ['\n']) ++ rest) = all.map text ++ lines rest := by
  unfold lines
  induction all with
  | nil => rfl
  | cons a all ih =>
    rcases List.forall_mem_cons.mp h with ⟨ha, hrest⟩
    rw [List.flatMap_cons, List.append_assoc, List.append_assoc, List.singleton_append,
      List.splitOn_append_cons_self, List.splitOn_eq_singleton ha, ih hrest]
    rfl

/-- A text has one line more than line breaks. -/
theorem length_lines (text : List Char) : (lines text).length = text.count '\n' + 1 := by
  unfold lines
  induction text with
  | nil => rfl
  | cons c text ih =>
    rw [List.splitOn_cons_eq_if_modifyHead, List.count_cons]
    split
    · rw [List.length_cons, ih]
    · rw [List.length_modifyHead, ih]

/-- Whatever comes behind a text continues its last line. -/
theorem exists_lines_append (front : List Char) :
    ∃ earlier, lines front = earlier ++ [lastLine front] ∧
      ∀ text, lines (front ++ text) = earlier ++ (lines text).modifyHead (lastLine front ++ ·) := by
  have hlast := newline_notMem_lastLine front
  have hcases := eq_lastLine_or_append front
  generalize lastLine front = last at hlast hcases ⊢
  rcases hcases with rfl | ⟨outer, rfl⟩
  · exact ⟨[], List.splitOn_eq_singleton hlast, lines_append_of_notMem hlast⟩
  · refine ⟨lines outer, ?_, fun text => ?_⟩
    · unfold lines
      rw [List.splitOn_append_cons_self, List.splitOn_eq_singleton hlast]
    · have hbehind := lines_append_of_notMem hlast text
      unfold lines at hbehind ⊢
      rw [List.append_assoc, List.cons_append, List.splitOn_append_cons_self, hbehind]

/-- A character that is no line break stands in the line, and behind as many
    characters of it, as the position behind the text in front of it says. -/
theorem exists_lines_append_cons (front rest : List Char) {c : Char} (h : c ≠ '\n') :
    ∃ earlier more later, lines front = earlier ++ [lastLine front] ∧
      lines (front ++ c :: rest) = earlier ++ (lastLine front ++ c :: more) :: later ∧
      after front = ⟨earlier.length + 1, (lastLine front).length + 1⟩ := by
  rcases exists_lines_append front with ⟨earlier, hfront, hwhole⟩
  -- The character does not end the line that it is in.
  have hrest : ∃ more later, lines (c :: rest) = (c :: more) :: later := by
    have hc : '\n' ∉ [c] := fun hmem => h (List.mem_singleton.mp hmem).symm
    have hcons := lines_append_of_notMem hc rest
    rcases List.exists_cons_of_ne_nil (List.splitOn_ne_nil '\n' rest) with ⟨more, later, hlines⟩
    unfold lines at hcons ⊢
    rw [hlines] at hcons
    exact ⟨more, later, hcons⟩
  rcases hrest with ⟨more, later, hrest⟩
  have hlength := length_lines front
  rw [hfront, List.length_append, List.length_singleton, Nat.add_right_cancel_iff] at hlength
  refine ⟨earlier, more, later, hfront, ?_, ?_⟩
  · rw [hwhole, hrest, List.modifyHead_cons]
  · rw [after, hlength, Nat.add_comm 1, Nat.add_comm 1]

end Position

end TestWrappers
