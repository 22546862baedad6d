import TestWrappers.Template.Scan
import TestWrappers.Text.Position

/-!
# Substitution

Filling a template in: every literal stretch stands for itself and every
reference for the value of its name.

Two things can go wrong, an unbound name and a dollar sign that announces
nothing, and the one further left is the one reported. The scan has already
put them in order: all its pieces stand before the text it could not read, so
the pieces are filled in first and only then is the rest looked at.

Values are copied, never read as templates, so a dollar sign in a value is
just a dollar sign.

## Main definitions

* `Template.Fault`: What can be wrong with a template.
* `Template.fill`: The text of a list of pieces, or the first unbound name.
* `Template.substitute`: The text of a template.

## Theorems

* `Template.fill_append`: Pieces are filled in from left to right.
-/

namespace TestWrappers

namespace Template

/-- What keeps a template from being filled in. -/
inductive Fault where
  /-- A name is used that no value is bound to. -/
  | unbound (name : String)
  /-- A dollar sign starts no placeholder. -/
  | stray (position : Position)
deriving DecidableEq, Repr

/-- The wording of a fault. -/
def Fault.message : Fault → String
  | unbound name => "no value supplied for placeholder $" ++ name
  | stray position =>
    "invalid placeholder at line " ++ toString position.line ++ ", column " ++
      toString position.column

/-- The text that a list of pieces stands for, or the first name that is
    unbound. -/
def fill (values : Bindings) : List Piece → Except String (List Char)
  | [] => .ok []
  | piece :: pieces =>
    match piece.value? values with
    | some text => (fill values pieces).map (text ++ ·)
    | none => .error (piece.name?.getD "")

theorem fill_append (values : Bindings) (ps qs : List Piece) :
    fill values (ps ++ qs) =
      (fill values ps).bind fun text => (fill values qs).map (text ++ ·) := by
  induction ps with
  | nil =>
    simp only [List.nil_append, fill, Except.bind]
    cases fill values qs <;> rfl
  | cons p ps ih =>
    simp only [List.cons_append, fill]
    cases p.value? values with
    | none => rfl
    | some text =>
      simp only [ih]
      cases fill values ps with
      | error e => rfl
      | ok out =>
        cases fill values qs with
        | error e => rfl
        | ok out' => simp [Except.bind, Except.map]

/-- Fill in a template, or report its leftmost fault. -/
def substitute (text : String) (values : Bindings) : Except Fault String :=
  let scan := Scan.ofText text.toList
  match fill values scan.pieces with
  | .error name => .error (.unbound name)
  | .ok filled =>
    if scan.rest.isEmpty then
      .ok (String.ofList filled)
    else
      .error (.stray (Position.after scan.written))

end Template

end TestWrappers
