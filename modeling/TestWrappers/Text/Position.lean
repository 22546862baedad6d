/-!
# Positions in a Text

Where in a text something stands, as a person reading it in an editor would
say it: a line and a column, both counted from one.

A position is given by the text in front of it, so no index into the text is
needed and none can be out of range. Columns count characters, not bytes, so a
letter with an accent moves the column by one however it is stored.

## Main definitions

* `Position`: A line and a column.
* `Position.after`: The position just behind a text.

## Theorems

* `Position.after_nil`: A text starts at line one, column one.
* `Position.after_concat_newline`: A line break starts the next line.
* `Position.after_concat`: Any other character moves the column by one.
-/

namespace TestWrappers

/-- A place in a text, counted in lines and in characters of its line. -/
structure Position where
  /-- The line, the first being one. -/
  line : Nat
  /-- The character of the line, the first being one. -/
  column : Nat
deriving DecidableEq, Repr

namespace Position

/-- The characters that stand behind the last line break of a text. -/
def lastLine (text : List Char) : List Char :=
  (text.reverse.takeWhile (· != '\n')).reverse

/-- The position of whatever follows a text. -/
def after (text : List Char) : Position :=
  ⟨1 + text.count '\n', 1 + (lastLine text).length⟩

theorem after_nil : after [] = ⟨1, 1⟩ := rfl

theorem after_concat_newline (text : List Char) :
    after (text ++ ['\n']) = ⟨(after text).line + 1, 1⟩ := by
  simp [after, lastLine, Nat.add_assoc]

theorem after_concat (text : List Char) {c : Char} (h : c ≠ '\n') :
    after (text ++ [c]) = ⟨(after text).line, (after text).column + 1⟩ := by
  simp [after, lastLine, h, Nat.add_assoc]

end Position

end TestWrappers
