import TestWrappers.Text.Letter
import TestWrappers.Text.Pattern.Bracket
import TestWrappers.Text.Pattern.Reading

/-!
# Patterns

Which texts are patterns for other texts.

A pattern is a regular expression. Nothing is matched against one here, so all
there is to know is whether a text can be read as one: its groups and brackets
are closed, what is to be repeated is there, what it asks for is to be had, and
it is not nested too deep.

What is not to be had are tables of the letters, digits and words of all scripts.
A pattern may ask for both cases of a letter, for a class of such characters or
for the boundaries of words only where it says that ASCII is meant.

## Main definitions

* `Pattern.step`: The next piece of a pattern.
* `Pattern.isPattern`: A text is a pattern.

## Theorems

* `Pattern.length_step_le`: A step never gives anything back.
-/

namespace TestWrappers

namespace Pattern

/-- The text can name a group. -/
def isGroupName : List Char → Bool
  | [] => false
  | c :: cs =>
    (c == '_' || Letter.isLetter c) &&
      cs.all fun c => ['_', '.', '[', ']'].contains c || Letter.isLetterOrNumeral c

/-- The group whose name is next. -/
def namedGroup (reading : Reading) (text : List Char) : Option (Reading × List Char) :=
  let name := text.takeWhile (· != '>')
  match text.dropWhile (· != '>') with
  | [] => none
  | _ :: rest =>
    if isGroupName name && !reading.names.contains name then
      some ({ reading.enter reading.mode with names := name :: reading.names }, rest)
    else
      none

/-- The group whose flags are next, or the flags for the rest of the current
    group. -/
def flaggedGroup (reading : Reading) (text : List Char) : Option (Reading × List Char) :=
  let flags := text.takeWhile fun c => c != ':' && c != ')'
  let mode := reading.mode.flagged flags
  if !Mode.areFlags flags then none
  else
    match text.dropWhile fun c => c != ':' && c != ')' with
    | ':' :: rest => some (reading.enter mode, rest)
    | ')' :: rest =>
      if flags.isEmpty then none else some (reading.behindFlags mode, rest)
    | _ => none

/-- The group whose opening parenthesis has been read. -/
def group (reading : Reading) (text : List Char) : Option (Reading × List Char) :=
  match reading.mode.skip text with
  | '?' :: 'P' :: '<' :: cs => namedGroup reading cs
  | '?' :: '<' :: cs => namedGroup reading cs
  | '?' :: cs => flaggedGroup reading cs
  | cs => some (reading.enter reading.mode, cs)

/-- What an escape stands for is to be had. -/
def admits (mode : Mode) : Escape → Bool
  | .char c isByte =>
    if mode.allScripts then !mode.anyCase else !isByte || c.toNat < 0x80
  | .set isNegated => !mode.allScripts && !isNegated
  | .wordBoundary => !mode.allScripts
  | .anchor => true

/-- The escape whose backslash has been read. -/
def escape (reading : Reading) (text : List Char) : Option (Reading × List Char) :=
  match Escape.read reading.mode text with
  | none => none
  | some (escape, rest) =>
    if admits reading.mode escape then some (reading.behindPiece 0, rest) else none

/-- A text without the question mark at its start that makes a repetition as
    short as can be. -/
def dropLazy : List Char → List Char
  | '?' :: cs => cs
  | cs => cs

/-- A character that stands for itself, for any character or for a place is to be
    had. -/
def admitsChar (mode : Mode) (c : Char) : Bool :=
  if c == '^' || c == '$' then true
  else if c == '.' then mode.allScripts
  else !mode.refusesLetters

/-- The piece of a pattern that a character begins: the reading behind it, and
    what is behind it. -/
def step (reading : Reading) (c : Char) (text : List Char) : Option (Reading × List Char) :=
  if c == '(' then group reading text
  else if c == ')' then reading.leave.map (·, text)
  else if c == '|' then some (reading.behindBar, text)
  else if ['*', '+', '?'].contains c then reading.behindRepetition.map (·, dropLazy text)
  else if c == '\x7b' then none
  else if c == '[' then
    (Bracket.read reading.mode text).map fun (depth, rest) => (reading.behindPiece depth, rest)
  else if c == '\\' then escape reading text
  else if admitsChar reading.mode c then some (reading.behindPiece 0, text)
  else none

theorem length_namedGroup_le {reading next : Reading} {text rest : List Char}
    (h : namedGroup reading text = some (next, rest)) : rest.length ≤ text.length := by
  have hdrop := (List.dropWhile_suffix (· != '>') (l := text)).length_le
  simp only [namedGroup] at h
  split at h
  · exact absurd h (by simp only [reduceCtorEq, not_false_eq_true])
  · next heq =>
    simp only [Option.ite_none_right_eq_some, Option.some.injEq, Prod.mk.injEq] at h
    rw [heq, List.length_cons] at hdrop
    rw [← h.2.2]
    omega

theorem length_flaggedGroup_le {reading next : Reading} {text rest : List Char}
    (h : flaggedGroup reading text = some (next, rest)) : rest.length ≤ text.length := by
  have hdrop := (List.dropWhile_suffix (fun c => c != ':' && c != ')') (l := text)).length_le
  simp only [flaggedGroup, Option.ite_none_left_eq_some] at h
  have h := h.2
  split at h
  · next heq =>
    rw [heq, List.length_cons] at hdrop
    rw [← (Prod.mk.inj (Option.some.inj h)).2]
    omega
  · next heq =>
    simp only [Option.ite_none_left_eq_some, Option.some.injEq, Prod.mk.injEq] at h
    rw [heq, List.length_cons] at hdrop
    rw [← h.2.2]
    omega
  · exact absurd h (by simp only [reduceCtorEq, not_false_eq_true])

theorem length_group_le {reading next : Reading} {text rest : List Char}
    (h : group reading text = some (next, rest)) : rest.length ≤ text.length := by
  have hskip := reading.mode.length_skip_le text
  simp only [group] at h
  split at h
  · next heq =>
    simp only [heq, List.length_cons] at hskip
    have := length_namedGroup_le h
    omega
  · next heq =>
    simp only [heq, List.length_cons] at hskip
    have := length_namedGroup_le h
    omega
  · next heq =>
    simp only [heq, List.length_cons] at hskip
    have := length_flaggedGroup_le h
    omega
  · rw [← (Prod.mk.inj (Option.some.inj h)).2]
    exact hskip

theorem length_escape_le {reading next : Reading} {text rest : List Char}
    (h : escape reading text = some (next, rest)) : rest.length ≤ text.length := by
  simp only [escape] at h
  split at h
  · exact absurd h (by simp only [reduceCtorEq, not_false_eq_true])
  · next hread =>
    simp only [Option.ite_none_right_eq_some, Option.some.injEq, Prod.mk.injEq] at h
    rw [← h.2.2]
    exact Nat.le_of_lt (Escape.length_read_lt hread)

theorem length_dropLazy_le (text : List Char) : (dropLazy text).length ≤ text.length := by
  simp only [dropLazy]
  split
  · exact Nat.le_succ _
  · exact Nat.le_refl _

theorem length_step_le {reading next : Reading} {c : Char} {text rest : List Char}
    (h : step reading c text = some (next, rest)) : rest.length ≤ text.length := by
  simp only [step] at h
  split at h
  · exact length_group_le h
  split at h
  · rcases Option.map_eq_some_iff.1 h with ⟨_, _, h⟩
    exact Nat.le_of_eq (congrArg List.length (Prod.mk.inj h).2.symm)
  split at h
  · exact Nat.le_of_eq (congrArg List.length (Prod.mk.inj (Option.some.inj h)).2.symm)
  split at h
  · rcases Option.map_eq_some_iff.1 h with ⟨_, _, h⟩
    exact (Prod.mk.inj h).2 ▸ length_dropLazy_le text
  split at h
  · exact absurd h (by simp only [reduceCtorEq, not_false_eq_true])
  split at h
  · rcases Option.map_eq_some_iff.1 h with ⟨_, hread, h⟩
    rw [← (Prod.mk.inj h).2]
    exact Nat.le_of_lt (Bracket.length_read_lt hread)
  split at h
  · exact length_escape_le h
  · simp only [Option.ite_none_right_eq_some, Option.some.injEq, Prod.mk.injEq] at h
    exact Nat.le_of_eq (congrArg List.length h.2.2.symm)

/-- The next piece of a pattern: the reading behind it, and what is behind it. -/
def advance (reading : Reading) (text : List Char) : Option (Reading × List Char) :=
  match reading.mode.skip text with
  | [] => none
  | c :: cs => step reading c cs

theorem length_advance_lt {reading next : Reading} {text rest : List Char}
    (h : advance reading text = some (next, rest)) : rest.length < text.length := by
  have hskip := reading.mode.length_skip_le text
  simp only [advance] at h
  split at h
  · exact absurd h (by simp only [reduceCtorEq, not_false_eq_true])
  · next heq =>
    rw [heq, List.length_cons] at hskip
    exact Nat.lt_of_lt_of_le (Nat.lt_succ_of_le (length_step_le h)) hskip

/-- The rest of a pattern can be read to its end. -/
def finishes (reading : Reading) (text : List Char) : Bool :=
  match _ : advance reading text with
  | some (next, rest) => finishes next rest
  | none => (reading.mode.skip text).isEmpty && reading.mayEnd
termination_by text.length
decreasing_by exact length_advance_lt (by assumption)

/-- The text is a pattern. -/
def isPattern (text : List Char) : Bool := finishes Reading.start text

end Pattern

end TestWrappers
