import TestWrappers.Template.Substitute

/-!
# The Grammar of Templates

Which texts can be filled in, and what they then say.

A template is described here from the side of whoever writes one: as a list of
pieces, each written out in its own way. Any list can be written out, but not
every list can be read back. A bare name takes every character that could
belong to it, so a bare name with such a character behind it would be read as a
longer name. `Legible` asks for names that are names, and for bare names that
end where they are meant to end.

Reading what has been written gives the pieces back, apart from how literal
text was divided: `merge` puts literal stretches that stand side by side into
one and drops empty ones. Reading any text gives a legible list. The two facts
together say that filling in succeeds on the written forms of legible lists and
on nothing else, and that a text has one list of merged pieces.

A value is put in place of its reference after the text has been read, so
nothing a value contains is ever read.

## Main definitions

* `Identifier.IsName`: The characters that a reference may name.
* `Piece.Legible`: Pieces that can be read back once they are written.
* `Piece.Bound`: Every name that the pieces refer to has a value.
* `Piece.EndsBare`: A text that follows the pieces could make their last name longer.
* `Piece.values`: The characters that pieces stand for, one after the other.
* `Piece.merge`, `Piece.Merged`: Literal stretches put together, and a list in
  which they are.

## Theorems

* `Piece.merged_merge`, `Piece.written_merge`: What merging does and keeps.
* `Scan.ofText_append`: Written pieces are read back in front of any text.
* `Scan.ofText_written`: Written pieces are read back, merged.
* `Scan.legible_ofText`: Whatever is read is legible.
* `Template.fill_eq_ok_iff`: Filling in needs values for all names only.
* `Template.substitute_eq_ok_iff`: Which templates can be filled in, with what
  result, and that their pieces are determined by their text.
-/

namespace TestWrappers

namespace Identifier

/-- The characters can be the name of a reference: the first of them starts a
    name, and the others may stand inside one. -/
def IsName : List Char → Prop
  | [] => False
  | c :: cs => isStart c = true ∧ ∀ d ∈ cs, isPart d = true

theorem ne_dollar_of_isStart {c : Char} (h : isStart c = true) : c ≠ '$' := by
  rintro rfl
  revert h
  decide

theorem ne_brace_of_isStart {c : Char} (h : isStart c = true) : c ≠ '\x7b' := by
  rintro rfl
  revert h
  decide

/-- A character that cannot be part of a name ends the name in front of it. -/
theorem not_isPart_of_mem_head?_cons {c d : Char} {cs : List Char} (hc : isPart c = false)
    (hd : d ∈ (c :: cs).head?) : isPart d = false :=
  Option.some.inj hd ▸ hc

/-- A line break ends every name. -/
theorem takeWhile_append_newline (cs more : List Char) :
    (cs ++ '\n' :: more).takeWhile isPart = cs.takeWhile isPart := by
  have hbreak : ('\n' :: more).takeWhile isPart = [] := rfl
  rw [List.takeWhile_append, hbreak, List.append_nil]
  split
  · rename_i hlength
    exact ((List.takeWhile_prefix _).eq_of_length hlength).symm
  · rfl

end Identifier

namespace Piece

/-- The pieces can be read back from what they are written as. -/
def Legible : List Piece → Prop
  | [] => True
  | literal _ :: pieces => Legible pieces
  | bare name :: pieces =>
    Identifier.IsName name ∧
      (∀ c ∈ (pieces.flatMap written).head?, Identifier.isPart c = false) ∧ Legible pieces
  | braced name :: pieces => Identifier.IsName name ∧ Legible pieces

/-- Every name that the pieces refer to is bound to a value. -/
def Bound (values : Bindings) (pieces : List Piece) : Prop :=
  ∀ piece ∈ pieces, ∀ name, piece.name? = some name → (values name).isSome = true

/-- The characters that the pieces stand for, one piece after the other. -/
def values (bindings : Bindings) (pieces : List Piece) : List Char :=
  pieces.flatMap fun piece => (piece.value? bindings).getD []

/-- Put a literal stretch in front of pieces, joining it to one that stands
    there. An empty stretch is left out. -/
def consLiteral (text : List Char) (pieces : List Piece) : List Piece :=
  if text = [] then pieces
  else
    match pieces with
    | literal more :: rest => literal (text ++ more) :: rest
    | pieces => literal text :: pieces

/-- The pieces with literal stretches put together and empty ones dropped. -/
def merge : List Piece → List Piece
  | [] => []
  | literal text :: pieces => consLiteral text (merge pieces)
  | bare name :: pieces => bare name :: merge pieces
  | braced name :: pieces => braced name :: merge pieces

/-- The last thing that the pieces are written with is a bare name. -/
def EndsBare (pieces : List Piece) : Prop :=
  ∃ front name back, pieces = front ++ bare name :: back ∧ back.flatMap written = []

/-- No literal stretch is empty, and no two of them stand side by side. -/
def Merged : List Piece → Prop
  | [] => True
  | literal text :: pieces =>
    text ≠ [] ∧ (∀ more rest, pieces ≠ literal more :: rest) ∧ Merged pieces
  | bare _ :: pieces => Merged pieces
  | braced _ :: pieces => Merged pieces

theorem consLiteral_of_ne_nil {text : List Char} (h : text ≠ []) (pieces : List Piece) :
    (∃ more rest, pieces = literal more :: rest ∧
      consLiteral text pieces = literal (text ++ more) :: rest) ∨
    ((∀ more rest, pieces ≠ literal more :: rest) ∧
      consLiteral text pieces = literal text :: pieces) := by
  unfold consLiteral
  rw [if_neg h]
  split
  · rename_i more rest
    exact Or.inl ⟨more, rest, rfl, rfl⟩
  · rename_i hne
    exact Or.inr ⟨hne, rfl⟩

theorem consLiteral_literal {text : List Char} (h : text ≠ []) (more : List Char)
    (pieces : List Piece) :
    consLiteral text (literal more :: pieces) = literal (text ++ more) :: pieces := by
  rw [consLiteral, if_neg h]

theorem consLiteral_append (text more : List Char) (pieces : List Piece) :
    consLiteral (text ++ more) pieces = consLiteral text (consLiteral more pieces) := by
  by_cases hmore : more = []
  · simp only [hmore, List.append_nil, consLiteral, ↓reduceIte]
  by_cases htext : text = []
  · simp only [htext, List.nil_append, consLiteral, ↓reduceIte]
  have hboth : text ++ more ≠ [] := fun hnil => htext (List.append_eq_nil_iff.mp hnil).1
  rcases consLiteral_of_ne_nil hmore pieces with ⟨last, rest, rfl, hcons⟩ | ⟨hne, hcons⟩
  · -- Both stretches are joined to the one that stands there.
    rw [hcons, consLiteral_literal hboth, consLiteral_literal htext, List.append_assoc]
  · rcases consLiteral_of_ne_nil hboth pieces with ⟨last, rest, heq, _⟩ | ⟨_, hconsBoth⟩
    · exact absurd heq (hne last rest)
    · rw [hconsBoth, hcons, consLiteral_literal htext]

theorem merged_consLiteral (text : List Char) {pieces : List Piece} (h : Merged pieces) :
    Merged (consLiteral text pieces) := by
  by_cases htext : text = []
  · unfold consLiteral
    rw [if_pos htext]
    exact h
  · rcases consLiteral_of_ne_nil htext pieces with ⟨more, rest, rfl, hcons⟩ | ⟨hne, hcons⟩
    · rw [hcons]
      exact ⟨fun hnil => htext (List.append_eq_nil_iff.mp hnil).1, h.2⟩
    · rw [hcons]
      exact ⟨htext, hne, h⟩

theorem merge_consLiteral (text : List Char) (pieces : List Piece) :
    merge (consLiteral text pieces) = consLiteral text (merge pieces) := by
  by_cases htext : text = []
  · simp only [consLiteral, htext, ↓reduceIte]
  · rcases consLiteral_of_ne_nil htext pieces with ⟨more, rest, rfl, hcons⟩ | ⟨_, hcons⟩
    · rw [hcons, merge, merge, consLiteral_append]
    · rw [hcons, merge]

theorem EndsBare.cons {pieces : List Piece} (piece : Piece) (h : EndsBare pieces) :
    EndsBare (piece :: pieces) := by
  rcases h with ⟨front, name, back, rfl, hback⟩
  exact ⟨piece :: front, name, back, rfl, hback⟩

theorem merged_merge (pieces : List Piece) : Merged (merge pieces) := by
  induction pieces with
  | nil => exact trivial
  | cons piece pieces ih =>
    cases piece with
    | literal text => exact merged_consLiteral text ih
    | bare name => exact ih
    | braced name => exact ih

example : merge [literal ['a'], literal [], literal ['$'], bare ['x'], literal []] =
    [literal ['a', '$'], bare ['x']] := rfl

theorem written_consLiteral (text : List Char) (pieces : List Piece) :
    (consLiteral text pieces).flatMap written =
      text.flatMap writtenChar ++ pieces.flatMap written := by
  by_cases htext : text = []
  · simp only [consLiteral, htext, ↓reduceIte, List.flatMap_nil, List.nil_append]
  · rcases consLiteral_of_ne_nil htext pieces with ⟨more, rest, rfl, hcons⟩ | ⟨_, hcons⟩
    · simp only [hcons, List.flatMap_cons, written, List.flatMap_append, List.append_assoc]
    · simp only [hcons, List.flatMap_cons, written]

theorem written_merge (pieces : List Piece) :
    (merge pieces).flatMap written = pieces.flatMap written := by
  induction pieces with
  | nil => rfl
  | cons piece pieces ih =>
    cases piece with
    | literal text => rw [merge, written_consLiteral, ih, List.flatMap_cons, written]
    | bare name => rw [merge, List.flatMap_cons, List.flatMap_cons, ih]
    | braced name => rw [merge, List.flatMap_cons, List.flatMap_cons, ih]

theorem values_consLiteral (bindings : Bindings) (text : List Char) (pieces : List Piece) :
    values bindings (consLiteral text pieces) = text ++ values bindings pieces := by
  by_cases htext : text = []
  · simp only [consLiteral, htext, ↓reduceIte, List.nil_append]
  · rcases consLiteral_of_ne_nil htext pieces with ⟨more, rest, rfl, hcons⟩ | ⟨_, hcons⟩
    · simp only [hcons, values, List.flatMap_cons, value?, Option.getD_some, List.append_assoc]
    · simp only [hcons, values, List.flatMap_cons, value?, Option.getD_some]

theorem values_merge (bindings : Bindings) (pieces : List Piece) :
    values bindings (merge pieces) = values bindings pieces := by
  induction pieces with
  | nil => rfl
  | cons piece pieces ih =>
    cases piece with
    | literal text =>
      rw [merge, values_consLiteral, ih]
      rfl
    | bare name =>
      simp only [merge, values, List.flatMap_cons] at ih ⊢
      rw [ih]
    | braced name =>
      simp only [merge, values, List.flatMap_cons] at ih ⊢
      rw [ih]

theorem bound_cons_iff (bindings : Bindings) (piece : Piece) (pieces : List Piece) :
    Bound bindings (piece :: pieces) ↔
      (∀ name, piece.name? = some name → (bindings name).isSome = true) ∧
        Bound bindings pieces :=
  List.forall_mem_cons

theorem bound_consLiteral_iff (bindings : Bindings) (text : List Char) (pieces : List Piece) :
    Bound bindings (consLiteral text pieces) ↔ Bound bindings pieces := by
  by_cases htext : text = []
  · simp only [consLiteral, htext, ↓reduceIte]
  · rcases consLiteral_of_ne_nil htext pieces with ⟨more, rest, rfl, hcons⟩ | ⟨_, hcons⟩
    · simp only [hcons, Bound, List.forall_mem_cons, name?]
    · simp [hcons, Bound, name?]

theorem bound_merge_iff (bindings : Bindings) (pieces : List Piece) :
    Bound bindings (merge pieces) ↔ Bound bindings pieces := by
  induction pieces with
  | nil => rfl
  | cons piece pieces ih =>
    cases piece with
    | literal text =>
      rw [merge, bound_consLiteral_iff, ih]
      simp [Bound, name?]
    | bare name =>
      simp only [merge, Bound, List.forall_mem_cons] at ih ⊢
      rw [ih]
    | braced name =>
      simp only [merge, Bound, List.forall_mem_cons] at ih ⊢
      rw [ih]

end Piece

namespace Placeholder

/-- A name with nothing behind it that could belong to it is read as it is. -/
theorem readName?_name_append {name rest : List Char} (hname : Identifier.IsName name)
    (hrest : ∀ c ∈ rest.head?, Identifier.isPart c = false) :
    readName? (name ++ rest) = some (name, rest) := by
  cases name with
  | nil => exact absurd hname not_false
  | cons c cs =>
    rcases hname with ⟨hstart, hparts⟩
    have hnone : rest.takeWhile Identifier.isPart = [] ∧
        rest.dropWhile Identifier.isPart = rest := by
      cases rest with
      | nil => exact ⟨rfl, rfl⟩
      | cons d rest =>
        have hd : Identifier.isPart d = false := hrest d rfl
        simp [hd]
    rw [List.cons_append, readName?, if_pos hstart, List.takeWhile_append_of_pos hparts,
      List.dropWhile_append_of_pos hparts, hnone.1, hnone.2, List.append_nil]

theorem isName_of_readName? {cs name rest : List Char} (h : readName? cs = some (name, rest)) :
    Identifier.IsName name ∧ ∀ c ∈ rest.head?, Identifier.isPart c = false := by
  cases cs with
  | nil => simp only [readName?, reduceCtorEq] at h
  | cons c cs =>
    simp only [readName?, Option.ite_none_right_eq_some, Option.some.injEq, Prod.mk.injEq] at h
    rcases h with ⟨hstart, rfl, rfl⟩
    refine ⟨⟨hstart, List.all_eq_true.mp List.all_takeWhile⟩, fun d hd => ?_⟩
    have hnot := List.head?_dropWhile_not Identifier.isPart cs
    rw [Option.mem_def.mp hd] at hnot
    simpa using hnot

/-- What is read is a second dollar sign, or a name up to its end, or a name and the
    braces around it. -/
theorem read?_cases {cs rest : List Char} {p : Placeholder} (h : read? cs = some (p, rest)) :
    (p = dollar ∧ cs = '$' :: rest) ∨
    ∃ name, Identifier.IsName name ∧
      ((p = bare name ∧ cs = name ++ rest ∧ ∀ c ∈ rest.head?, Identifier.isPart c = false) ∨
        (p = braced name ∧ cs = '\x7b' :: (name ++ '\x7d' :: rest))) := by
  unfold read? at h
  split at h
  · rcases Prod.mk.inj (Option.some.inj h) with ⟨rfl, rfl⟩
    exact Or.inl ⟨rfl, rfl⟩
  · split at h
    · rename_i name _ hread
      rcases Prod.mk.inj (Option.some.inj h) with ⟨rfl, rfl⟩
      refine Or.inr ⟨name, (isName_of_readName? hread).1, Or.inr ⟨rfl, ?_⟩⟩
      rw [readName?_append hread]
    · exact absurd h nofun
  · rcases Option.map_eq_some_iff.mp h with ⟨⟨name, after⟩, hread, heq⟩
    rcases Prod.mk.inj heq with ⟨rfl, rfl⟩
    rcases isName_of_readName? hread with ⟨hname, hend⟩
    exact Or.inr ⟨name, hname, Or.inl ⟨rfl, (readName?_append hread).symm, hend⟩⟩

theorem read?_bare {name rest : List Char} (hname : Identifier.IsName name)
    (hrest : ∀ c ∈ rest.head?, Identifier.isPart c = false) :
    read? (name ++ rest) = some (bare name, rest) := by
  have hread := readName?_name_append hname hrest
  cases name with
  | nil => exact absurd hname not_false
  | cons c cs =>
    have hdollar := Identifier.ne_dollar_of_isStart hname.1
    have hbrace := Identifier.ne_brace_of_isStart hname.1
    -- The start of a name is neither a dollar sign nor a brace.
    unfold read?
    split
    · rename_i heq
      exact absurd (List.cons.inj heq).1 hdollar
    · rename_i heq
      exact absurd (List.cons.inj heq).1 hbrace
    · rw [hread, Option.map_some]

theorem read?_braced {name rest : List Char} (hname : Identifier.IsName name) :
    read? ('\x7b' :: (name ++ '\x7d' :: rest)) = some (braced name, rest) := by
  -- The closing brace cannot belong to a name, so the name ends there.
  have hread : readName? (name ++ '\x7d' :: rest) = some (name, '\x7d' :: rest) := by
    refine readName?_name_append hname fun _ => ?_
    exact Identifier.not_isPart_of_mem_head?_cons (by decide)
  simp only [read?, hread]

end Placeholder

namespace Scan

theorem ofText_cons {c : Char} (h : c ≠ '$') (cs : List Char) :
    ofText (c :: cs) = (ofText cs).consChar c := by
  rw [ofText, if_neg h]

theorem ofText_dollar {cs rest : List Char} {p : Placeholder}
    (h : Placeholder.read? cs = some (p, rest)) : ofText ('$' :: cs) = (ofText rest).cons p := by
  rw [ofText, if_pos rfl]
  split
  · rename_i hread
    rw [h, Option.some.injEq, Prod.mk.injEq] at hread
    rw [hread.1, hread.2]
  · rename_i hread
    rw [h] at hread
    simp only [reduceCtorEq] at hread

theorem ofText_writtenChar (c : Char) (cs : List Char) :
    ofText (Piece.writtenChar c ++ cs) = (ofText cs).consChar c := by
  by_cases hc : c = '$'
  · subst hc
    exact ofText_dollar (p := .dollar) rfl
  · rw [Piece.writtenChar, if_neg hc]
    exact ofText_cons hc cs

theorem consChar_eq (c : Char) (scan : Scan) :
    scan.consChar c = ⟨Piece.consLiteral [c] scan.pieces, scan.rest⟩ := by
  unfold consChar
  split
  · rename_i hpieces
    rw [hpieces, Piece.consLiteral_literal (List.cons_ne_nil c [])]
    rfl
  · rename_i hne
    rcases Piece.consLiteral_of_ne_nil (List.cons_ne_nil c []) scan.pieces with
      ⟨more, rest, heq, _⟩ | ⟨_, hcons⟩
    · exact absurd heq (hne more rest)
    · rw [hcons]

/-- Literal text in front of a text is read as one stretch in front of the
    pieces of that text. -/
theorem ofText_literal (text cs : List Char) :
    ofText (text.flatMap Piece.writtenChar ++ cs) =
      ⟨Piece.consLiteral text (ofText cs).pieces, (ofText cs).rest⟩ := by
  induction text with
  | nil => rfl
  | cons c text ih =>
    rw [List.flatMap_cons, List.append_assoc, ofText_writtenChar, ih, consChar_eq,
      ← Piece.consLiteral_append, List.singleton_append]

/-- What is read of a text has its literal stretches put together. -/
theorem merge_pieces_ofText (cs : List Char) :
    Piece.merge (ofText cs).pieces = (ofText cs).pieces := by
  fun_induction ofText cs with
  | case1 => rfl
  | case2 cs p rest h ih =>
    cases p with
    | dollar => simp only [cons, consChar_eq, Piece.merge_consLiteral, ih]
    | bare name => exact congrArg (.bare name :: ·) ih
    | braced name => exact congrArg (.braced name :: ·) ih
  | case3 cs h => rfl
  | case4 c cs hc ih => simp only [consChar_eq, Piece.merge_consLiteral, ih]

/-- Pieces that are written in front of a text are read back in front of what is
    read of it, unless a bare name at their end goes on in the text. -/
theorem ofText_append {pieces : List Piece} {cs : List Char} (h : Piece.Legible pieces)
    (hend : Piece.EndsBare pieces → ∀ c ∈ cs.head?, Identifier.isPart c = false) :
    ofText (pieces.flatMap Piece.written ++ cs) =
      ⟨Piece.merge (pieces ++ (ofText cs).pieces), (ofText cs).rest⟩ := by
  induction pieces with
  | nil => rw [List.flatMap_nil, List.nil_append, List.nil_append, merge_pieces_ofText]
  | cons piece pieces ih =>
    have hend' : Piece.EndsBare pieces → ∀ c ∈ cs.head?, Identifier.isPart c = false :=
      fun hbare => hend (hbare.cons piece)
    rw [List.flatMap_cons, List.append_assoc, List.cons_append]
    cases piece with
    | literal text => rw [Piece.written, ofText_literal, ih h hend', Piece.merge]
    | bare name =>
      -- Only a bare name needs to know what follows it.
      rcases h with ⟨hname, hnext, hrest⟩
      have hstop : ∀ c ∈ (pieces.flatMap Piece.written ++ cs).head?,
          Identifier.isPart c = false := by
        intro c hc
        cases hpieces : pieces.flatMap Piece.written with
        | nil =>
          rw [hpieces, List.nil_append] at hc
          exact hend ⟨[], name, pieces, rfl, hpieces⟩ c hc
        | cons d more =>
          rw [hpieces] at hc hnext
          exact hnext c hc
      rw [Piece.written, List.cons_append, ofText_dollar (Placeholder.read?_bare hname hstop),
        ih hrest hend', Piece.merge, cons]
    | braced name =>
      rcases h with ⟨hname, hrest⟩
      rw [Piece.written, List.cons_append, List.cons_append, List.append_assoc,
        List.singleton_append, ofText_dollar (Placeholder.read?_braced hname), ih hrest hend',
        Piece.merge, cons]

/-- Written pieces are read back, with their literal stretches put together, and
    nothing of the text is left. -/
theorem ofText_written {pieces : List Piece} (h : Piece.Legible pieces) :
    ofText (pieces.flatMap Piece.written) = ⟨Piece.merge pieces, []⟩ := by
  have hread := @ofText_append pieces [] h fun _ _ hc => absurd hc nofun
  rwa [List.append_nil, ofText, List.append_nil] at hread

theorem legible_consChar (c : Char) {scan : Scan} (h : Piece.Legible scan.pieces) :
    Piece.Legible (scan.consChar c).pieces := by
  unfold consChar
  split
  · rename_i hpieces
    rw [hpieces] at h
    exact h
  · exact h

/-- What was read of a text is its beginning, so a character that cannot stand
    at the front of the text cannot stand at the front of what was read. -/
theorem head?_written_ofText {cs : List Char} {c : Char}
    (h : c ∈ ((ofText cs).pieces.flatMap Piece.written).head?) : c ∈ cs.head? := by
  have hcs := written_append_rest cs
  rw [written] at hcs
  rw [← hcs, List.head?_append, Option.mem_def.mp h]
  rfl

/-- The pieces of any text are legible: a placeholder is read only if its name
    is a name, and a bare name is read to its end. -/
theorem legible_ofText (cs : List Char) : Piece.Legible (ofText cs).pieces := by
  fun_induction ofText cs with
  | case1 => exact trivial
  | case2 cs p rest h ih =>
    rcases Placeholder.read?_cases h with ⟨rfl, _⟩ | ⟨name, hname, ⟨rfl, _, hend⟩ | ⟨rfl, _⟩⟩
    · exact legible_consChar '$' ih
    · -- A name without braces is read up to the first character that is no part of it.
      exact ⟨hname, fun c hc => hend c (head?_written_ofText hc), ih⟩
    · exact ⟨hname, ih⟩
  | case3 cs h => exact trivial
  | case4 c cs hc ih => exact legible_consChar c ih

end Scan

namespace Template

/-- Pieces can be filled in as soon as all their names are bound, and the result
    is what they stand for. -/
theorem fill_eq_ok_iff (bindings : Bindings) (pieces : List Piece) (out : List Char) :
    fill bindings pieces = .ok out ↔
      Piece.Bound bindings pieces ∧ out = Piece.values bindings pieces := by
  induction pieces generalizing out with
  | nil =>
    simp only [fill, Except.ok.injEq, Piece.values, List.flatMap_nil]
    exact ⟨fun h => ⟨fun _ hmem => absurd hmem List.not_mem_nil, h.symm⟩, fun h => h.2.symm⟩
  | cons piece pieces ih =>
    have hvalues : Piece.values bindings (piece :: pieces) =
        (piece.value? bindings).getD [] ++ Piece.values bindings pieces := rfl
    simp only [fill, Piece.bound_cons_iff, hvalues]
    cases hvalue : piece.value? bindings with
    | none =>
      -- A piece without a value refers to a name that is not bound.
      rcases (Piece.value?_eq_none_iff bindings piece).mp hvalue with ⟨name, hname, hunbound⟩
      simp only [reduceCtorEq, false_iff]
      rintro ⟨⟨hbound, _⟩, _⟩
      have hsome := hbound name hname
      rw [hunbound] at hsome
      simp only [Option.isSome_none, Bool.false_eq_true] at hsome
    | some text =>
      have hbound : ∀ name, piece.name? = some name → (bindings name).isSome = true := by
        intro name hname
        cases hunbound : bindings name with
        | some value => rfl
        | none =>
          have hnone := (Piece.value?_eq_none_iff bindings piece).mpr ⟨name, hname, hunbound⟩
          rw [hvalue] at hnone
          simp only [reduceCtorEq] at hnone
      simp only [Option.getD_some]
      constructor
      · intro h
        cases hfill : fill bindings pieces with
        | error name => simp only [hfill, Except.map, reduceCtorEq] at h
        | ok rest =>
          simp only [hfill, Except.map, Except.ok.injEq] at h
          rcases (ih rest).mp hfill with ⟨hrest, rfl⟩
          exact ⟨⟨hbound, hrest⟩, h.symm⟩
      · rintro ⟨⟨_, hrest⟩, rfl⟩
        rw [(ih _).mpr ⟨hrest, rfl⟩]
        rfl

theorem substitute_eq_ok_iff_scan (text : String) (bindings : Bindings) (out : String) :
    substitute text bindings = .ok out ↔
      (Scan.ofText text.toList).rest = [] ∧
        fill bindings (Scan.ofText text.toList).pieces = .ok out.toList := by
  simp only [substitute]
  cases fill bindings (Scan.ofText text.toList).pieces with
  | error name => simp only [reduceCtorEq, and_false]
  | ok filled =>
    simp only [Except.ok.injEq, List.isEmpty_iff]
    by_cases hrest : (Scan.ofText text.toList).rest = []
    · rw [if_pos hrest]
      simp only [hrest, Except.ok.injEq, true_and]
      constructor
      · intro h
        rw [← h, String.toList_ofList]
      · intro h
        rw [h, String.ofList_toList]
    · rw [if_neg hrest]
      simp only [reduceCtorEq, hrest, false_and]

/-- A template can be filled in exactly if it is the written form of legible
    pieces whose names are all bound, and it then says what the pieces stand for.
    There is one such list of pieces once literal stretches are put together and
    empty ones dropped. -/
theorem substitute_eq_ok_iff (text : String) (bindings : Bindings) (out : String) :
    (substitute text bindings = .ok out ↔
      ∃ pieces, Piece.Legible pieces ∧ pieces.flatMap Piece.written = text.toList ∧
        Piece.Bound bindings pieces ∧ out.toList = Piece.values bindings pieces) ∧
    ∀ pieces others, Piece.Legible pieces → Piece.Legible others →
      pieces.flatMap Piece.written = text.toList → others.flatMap Piece.written = text.toList →
      Piece.merge pieces = Piece.merge others ∧ Piece.Merged (Piece.merge pieces) ∧
        (Piece.merge pieces).flatMap Piece.written = text.toList := by
  refine ⟨?_, fun pieces others hpieces hothers hwritten hwritten' => ?_⟩
  · rw [substitute_eq_ok_iff_scan, fill_eq_ok_iff]
    constructor
    · rintro ⟨hrest, hbound, hout⟩
      -- The pieces that were read are the ones that the text is written from.
      refine ⟨(Scan.ofText text.toList).pieces, Scan.legible_ofText _, ?_, hbound, hout⟩
      have hall := Scan.written_append_rest text.toList
      rwa [hrest, List.append_nil] at hall
    · rintro ⟨pieces, hlegible, hwritten, hbound, hout⟩
      -- Legible pieces are read back merged, and merging changes no value.
      have hscan := Scan.ofText_written hlegible
      rw [hwritten] at hscan
      rw [hscan]
      exact ⟨rfl, (Piece.bound_merge_iff bindings pieces).mpr hbound,
        hout.trans (Piece.values_merge bindings pieces).symm⟩
  · -- Both lists are what the scan of the text reads.
    have hscan := Scan.ofText_written hpieces
    have hscan' := Scan.ofText_written hothers
    rw [hwritten] at hscan
    rw [hwritten', hscan] at hscan'
    exact ⟨congrArg Scan.pieces hscan', Piece.merged_merge pieces,
      (Piece.written_merge pieces).trans hwritten⟩

end Template

end TestWrappers
