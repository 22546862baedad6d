import TestWrappers.Text.Blank

/-!
# Modes of Patterns

How the rest of a group of a pattern is to be read.

A group can say in flags that letters stand for both of their cases, that only
ASCII is meant, or that blanks and comments are there for the reader only. What
it says holds up to its end.

## Main definitions

* `Pattern.Mode`: How a part of a pattern is read.
* `Pattern.Mode.skip`: A pattern without the blanks that do not count.
* `Pattern.Mode.areFlags`: A text is a list of flags.
* `Pattern.Mode.flagged`: A mode changed by flags.

## Theorems

* `Pattern.Mode.length_skip_le`: Leaving out blanks makes no text longer.
-/

namespace TestWrappers

namespace Pattern

/-- How a part of a pattern is read. -/
structure Mode where
  /-- Letters stand for both of their cases. -/
  anyCase : Bool
  /-- Characters of all scripts are meant, and not ASCII only. -/
  allScripts : Bool
  /-- Blanks and comments do not count. -/
  spaced : Bool
deriving DecidableEq, Repr

namespace Mode

/-- How a pattern is read that says nothing about it. -/
def plain : Mode := ⟨false, true, false⟩

/-- A text without the blanks and comments at its start. If it starts within a
    comment, that is left out first. -/
def skipBlanks : Bool → List Char → List Char
  | _, [] => []
  | true, c :: cs => skipBlanks (c != '\n') cs
  | false, c :: cs =>
    if Blank.isBlank c then skipBlanks false cs
    else if c = '#' then skipBlanks true cs
    else c :: cs

/-- A text without the blanks and comments at its start, if they do not count. -/
def skip (mode : Mode) (text : List Char) : List Char :=
  if mode.spaced then skipBlanks false text else text

/-- The character that counts next. Where blanks do not count, a comment sign
    does not count either, but what is behind it does. -/
def peek (mode : Mode) (text : List Char) : Option Char :=
  if mode.spaced then
    match text.dropWhile Blank.isBlank with
    | '#' :: text => (text.dropWhile Blank.isBlank).head?
    | text => text.head?
  else
    text.head?

/-- The letters of the flags. -/
def flagLetters : List Char := ['i', 'm', 's', 'U', 'u', 'R', 'x']

/-- The text is a list of flags. Each of them stands there once, and so does the
    dash, if there is one; it is not the last, as what follows it is turned
    off. -/
def areFlags (flags : List Char) : Bool :=
  flags.all (fun c => c == '-' || flagLetters.contains c) && decide flags.Nodup &&
    flags.getLast? != some '-'

/-- What a flag is after some flags, and what it was before. -/
def turned (flags : List Char) (flag : Char) (before : Bool) : Bool :=
  if (flags.takeWhile (· != '-')).contains flag then true
  else if flags.contains flag then false
  else before

/-- The mode with some flags turned on or off. -/
def flagged (mode : Mode) (flags : List Char) : Mode :=
  ⟨turned flags 'i' mode.anyCase, turned flags 'u' mode.allScripts, turned flags 'x' mode.spaced⟩

/-- Characters are not to be had in this mode, because there is no table of the
    two cases that the letters of all scripts have. -/
def refusesLetters (mode : Mode) : Bool := mode.anyCase && mode.allScripts

theorem length_skipBlanks_le (inComment : Bool) (text : List Char) :
    (skipBlanks inComment text).length ≤ text.length := by
  induction text generalizing inComment with
  | nil => cases inComment <;> exact Nat.le_refl _
  | cons c cs ih =>
    have hcs := fun inComment => Nat.le_succ_of_le (ih inComment)
    cases inComment with
    | true => exact hcs _
    | false =>
      simp only [skipBlanks]
      split
      · exact hcs _
      · split
        · exact hcs _
        · exact Nat.le_refl _

theorem length_skip_le (mode : Mode) (text : List Char) :
    (mode.skip text).length ≤ text.length := by
  rw [skip]
  split
  · exact length_skipBlanks_le _ _
  · exact Nat.le_refl _

end Mode

end Pattern

end TestWrappers
