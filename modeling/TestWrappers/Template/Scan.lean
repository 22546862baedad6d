import TestWrappers.Template.Piece

/-!
# Scanning a Template

Taking the text of a template apart into its pieces, from left to right, until
the text ends or a dollar sign announces nothing.

The scan never fails. It reports how far it came: the pieces it could read and
the text that is left, which is empty or begins with the dollar sign that
starts no placeholder. What is read and what is left together are the text,
character for character (`written_append_rest`), so the place of a stray dollar
sign is the place behind the written pieces and no offset has to be carried.

A bare name reaches as far as its characters do. A name in braces has to be
closed by its brace. Literal characters are gathered into one stretch, so two
literal pieces never stand side by side.

## Main definitions

* `Placeholder.read?`: The placeholder that follows a dollar sign.
* `Scan`: The pieces read and the text left.
* `Scan.ofText`: The scan of a text.

## Theorems

* `Placeholder.read?_written`: What is read is what stands there.
* `Placeholder.read?_length`: Reading a placeholder never lengthens the text.
* `Scan.written_append_rest`: The scan loses nothing.
-/

namespace TestWrappers

/-- What can follow a dollar sign. -/
inductive Placeholder where
  /-- A second dollar sign, which makes the pair a literal one. -/
  | dollar
  /-- A name that stands bare. -/
  | bare (name : List Char)
  /-- A name in braces. -/
  | braced (name : List Char)
deriving DecidableEq, Repr

namespace Placeholder

/-- The longest name at the front of a text, and what follows it. -/
def readName? : List Char → Option (List Char × List Char)
  | [] => none
  | c :: cs =>
    if Identifier.isStart c then
      some (c :: cs.takeWhile Identifier.isPart, cs.dropWhile Identifier.isPart)
    else
      none

/-- The placeholder at the front of a text that follows a dollar sign, and
    what follows it. -/
def read? : List Char → Option (Placeholder × List Char)
  | '$' :: cs => some (dollar, cs)
  | '\x7b' :: cs =>
    match readName? cs with
    | some (name, '\x7d' :: rest) => some (braced name, rest)
    | _ => none
  | cs => (readName? cs).map fun (name, rest) => (bare name, rest)

/-- The characters a placeholder is written with, its dollar sign left out. -/
def written : Placeholder → List Char
  | dollar => ['$']
  | bare name => name
  | braced name => '\x7b' :: (name ++ ['\x7d'])

theorem readName?_append {cs name rest : List Char} (h : readName? cs = some (name, rest)) :
    name ++ rest = cs := by
  cases cs with
  | nil => simp [readName?] at h
  | cons c cs =>
    simp only [readName?] at h
    split at h
    · simp only [Option.some.injEq, Prod.mk.injEq] at h
      rw [← h.1, ← h.2, List.cons_append, List.takeWhile_append_dropWhile]
    · simp at h

theorem read?_written {cs rest : List Char} {p : Placeholder} (h : read? cs = some (p, rest)) :
    p.written ++ rest = cs := by
  unfold read? at h
  split at h
  · simp only [Option.some.injEq, Prod.mk.injEq] at h
    simp [← h.1, ← h.2, written]
  · split at h
    · rename_i hname
      simp only [Option.some.injEq, Prod.mk.injEq] at h
      simp [← h.1, ← h.2, written, ← readName?_append hname]
    · simp at h
  · simp only [Option.map_eq_some_iff, Prod.mk.injEq, Prod.exists] at h
    obtain ⟨name, rest', hname, hp, hrest⟩ := h
    rw [← hp, ← hrest]
    exact readName?_append hname

theorem read?_length {cs rest : List Char} {p : Placeholder} (h : read? cs = some (p, rest)) :
    rest.length ≤ cs.length := by
  rw [← read?_written h, List.length_append]
  omega

end Placeholder

/-- How far a template could be read. -/
structure Scan where
  /-- The pieces in their order. -/
  pieces : List Piece
  /-- The text behind them: empty, or a dollar sign that starts no placeholder
      and all that follows it. -/
  rest : List Char
deriving DecidableEq, Repr

namespace Scan

/-- Put a literal character in front of what was read, joining it to a literal
    stretch that stands there. -/
def consChar (c : Char) (scan : Scan) : Scan :=
  match scan.pieces with
  | .literal text :: pieces => ⟨.literal (c :: text) :: pieces, scan.rest⟩
  | pieces => ⟨.literal [c] :: pieces, scan.rest⟩

/-- Put a placeholder in front of what was read. -/
def cons (p : Placeholder) (scan : Scan) : Scan :=
  match p with
  | .dollar => scan.consChar '$'
  | .bare name => ⟨.bare name :: scan.pieces, scan.rest⟩
  | .braced name => ⟨.braced name :: scan.pieces, scan.rest⟩

/-- Read a text from its front. -/
def ofText : List Char → Scan
  | [] => ⟨[], []⟩
  | c :: cs =>
    if c = '$' then
      match _h : Placeholder.read? cs with
      | some (p, rest) => (ofText rest).cons p
      | none => ⟨[], c :: cs⟩
    else
      (ofText cs).consChar c
termination_by cs => cs.length
decreasing_by
  · have := Placeholder.read?_length _h
    simp only [List.length_cons]
    omega
  · simp

/-- The characters that were read. -/
def written (scan : Scan) : List Char := scan.pieces.flatMap Piece.written

theorem written_consChar (c : Char) (scan : Scan) :
    (scan.consChar c).written = Piece.writtenChar c ++ scan.written := by
  unfold consChar
  split
  · rename_i hp
    simp [written, hp, Piece.written]
  · simp [written, Piece.written]

theorem rest_consChar (c : Char) (scan : Scan) : (scan.consChar c).rest = scan.rest := by
  unfold consChar
  split <;> rfl

theorem written_cons (p : Placeholder) (scan : Scan) :
    (scan.cons p).written = '$' :: p.written ++ scan.written := by
  cases p with
  | dollar => simp [cons, written_consChar, Piece.writtenChar, Placeholder.written]
  | bare name => simp [cons, written, Piece.written, Placeholder.written]
  | braced name => simp [cons, written, Piece.written, Placeholder.written]

theorem rest_cons (p : Placeholder) (scan : Scan) : (scan.cons p).rest = scan.rest := by
  cases p <;> simp [cons, rest_consChar]

/-- What was read and what is left are the text. -/
theorem written_append_rest (cs : List Char) : (ofText cs).written ++ (ofText cs).rest = cs := by
  fun_induction ofText cs with
  | case1 => rfl
  | case2 cs p rest h ih =>
    rw [written_cons, rest_cons, List.append_assoc, ih, List.cons_append,
      Placeholder.read?_written h]
  | case3 cs h => rfl
  | case4 c cs hc ih =>
    rw [written_consChar, rest_consChar, List.append_assoc, ih, Piece.writtenChar, if_neg hc]
    rfl

end Scan

end TestWrappers
