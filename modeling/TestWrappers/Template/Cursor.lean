import TestWrappers.Template.Substitute
import TestWrappers.Text.Offset

/-!
# Filling in by Offsets

Filling a template in without taking it apart first.

The text is gone through in turns. Each turn looks for the next dollar sign in what is left
of the text, copies what stands in front of it, reads the placeholder behind it and copies
its value. Nothing is kept but what is left and what is filled in, and everything is found
by its offset in bytes. The fault that is met first ends the turns, so it is the leftmost
one, and what is wrong behind it is never looked at.

Every cut and every difference of offsets could be a slip, so all steps here may end in a
`Slip`. That none of them does, and that the result is that of `Template.substitute`, is
shown elsewhere.

## Main definitions

* `Cursor`: What is left of a text, and what is filled in.
* `Cursor.nameSize`: The size of a name.
* `Cursor.announced`: The placeholder behind a dollar sign, and its size.
* `Cursor.position`: The position of an offset.
* `Cursor.turn`: One turn.
* `Cursor.run`: All turns.

## Theorems

* `Cursor.size_lt_of_turn`: Each turn leaves less of the text.
-/

namespace TestWrappers

namespace Template

/-- The text that a placeholder stands for, or its name if no value is bound to that. -/
def placeholderValue (values : Bindings) : Placeholder → Except String String
  | .dollar => .ok "$"
  | .bare name | .braced name =>
    match values (String.ofList name) with
    | some value => .ok value
    | none => .error (String.ofList name)

/-- How far a text is filled in. -/
structure Cursor where
  /-- What is left of the text. -/
  rest : String
  /-- What the text in front of it came to. -/
  out : String
deriving DecidableEq, Repr

/-- How a turn ends. -/
inductive Turn where
  /-- The next turn goes on from here. -/
  | again (cursor : Cursor)
  /-- There is nothing more to do. -/
  | done (result : Except Fault String)

namespace Cursor

/-- The size of the name that a text begins with, zero if it begins with none. -/
def nameSize (text : String) : Nat :=
  match Offset.indices text with
  | [] => 0
  | (_, c) :: more =>
    if Identifier.isStart c then
      -- A name ends in front of the first character that is no part of it.
      ((more.find? (!Identifier.isPart ·.2)).map (·.1)).getD text.utf8ByteSize
    else 0

/-- The reference that an opening brace begins, where the text goes on behind the brace,
    and its size. -/
def bracedName (braced : String) : Except Slip (Option (Placeholder × Nat)) :=
  let size := nameSize braced
  if 0 < size then do
    let behind ← Offset.back braced size
    if (Offset.behind? '\x7d' behind).isSome then
      let name ← Offset.front braced size
      -- Both braces belong to the reference.
      return some (.braced name.toList, size + 2)
    else return none
  else return none

/-- The reference that a name without braces is, and its size. -/
def bareName (after : String) : Except Slip (Option (Placeholder × Nat)) :=
  let size := nameSize after
  if 0 < size then do
    let name ← Offset.front after size
    return some (.bare name.toList, size)
  else return none

/-- The placeholder at the front of a text that follows a dollar sign, and its size. -/
def announced (after : String) : Except Slip (Option (Placeholder × Nat)) :=
  if (Offset.behind? '$' after).isSome then return some (.dollar, 1)
  else
    match Offset.behind? '\x7b' after with
    | some braced => bracedName braced
    | none => bareName after

/-- Where the line that a text ends in begins. -/
def lineStart (before : String) : Nat := ((Offset.findLast? '\n' before).map (· + 1)).getD 0

/-- The position of what stands at an offset. -/
def position (text : String) (offset : Nat) : Except Slip Position := do
  let before ← Offset.front text offset
  let last ← Offset.back before (lineStart before)
  return ⟨before.toList.count '\n' + 1, last.length + 1⟩

/-- One turn: up to the next dollar sign and past its placeholder. -/
def turn (text : String) (values : Bindings) (cursor : Cursor) : Except Slip Turn :=
  match Offset.find? '$' cursor.rest with
  | none => .ok (.done (.ok (cursor.out ++ cursor.rest)))
  | some offset => do
    let before ← Offset.front cursor.rest offset
    let after ← Offset.back cursor.rest (offset + 1)
    match ← announced after with
    | none =>
      let start ← Offset.less text.utf8ByteSize cursor.rest.utf8ByteSize
      let place ← position text (start + offset)
      return .done (.error (.stray place))
    | some (placeholder, size) =>
      match placeholderValue values placeholder with
      | .error name => return .done (.error (.unbound name))
      | .ok value =>
        let rest ← Offset.back after size
        return .again ⟨rest, cursor.out ++ before ++ value⟩

theorem bind_eq_ok {ε α β : Type} {x : Except ε α} {f : α → Except ε β} {b : β}
    (h : x >>= f = .ok b) : ∃ a, x = .ok a ∧ f a = .ok b := by
  cases x with
  | error e => cases h
  | ok a => exact ⟨a, rfl, h⟩

/-- A turn leaves less of the text, whatever it was given. -/
theorem size_lt_of_turn {text : String} {values : Bindings} {cursor next : Cursor}
    (h : turn text values cursor = .ok (.again next)) :
    next.rest.utf8ByteSize < cursor.rest.utf8ByteSize := by
  unfold turn at h
  split at h
  · cases h
  · rcases bind_eq_ok h with ⟨before, _, h⟩
    rcases bind_eq_ok h with ⟨after, hafter, h⟩
    rcases bind_eq_ok h with ⟨found, _, h⟩
    have hsize := Offset.back_size hafter
    split at h
    · rcases bind_eq_ok h with ⟨start, _, h⟩
      rcases bind_eq_ok h with ⟨place, _, h⟩
      cases h
    · split at h
      · cases h
      · rcases bind_eq_ok h with ⟨rest, hrest, h⟩
        have hsize' := Offset.back_size hrest
        cases h
        dsimp only
        omega

/-- All turns from a given state on. -/
def resume (text : String) (values : Bindings) (cursor : Cursor) :
    Except Slip (Except Fault String) :=
  match _h : turn text values cursor with
  | .error slip => .error slip
  | .ok (.done result) => .ok result
  | .ok (.again next) => resume text values next
termination_by cursor.rest.utf8ByteSize
decreasing_by exact size_lt_of_turn _h

/-- Fill in a template by offsets. -/
def run (text : String) (values : Bindings) : Except Slip (Except Fault String) :=
  resume text values ⟨text, ""⟩

end Cursor

end Template

end TestWrappers
