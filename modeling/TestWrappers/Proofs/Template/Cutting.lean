import Mathlib.Data.List.Basic
import TestWrappers.Proofs.Template.Faults

/-!
# Cutting a Template at its Names

A template whose dollar signs all announce bare names, as literal stretches with
names between them.

Cutting looks at dollar signs only. It does not read the text as a template, so it
also cuts a text that is none: what follows a sign is then no name. Where all of
them are names, the scan reads those names and stretches, and filling in puts the
value of each name between the stretches it was cut from. A value is not looked at.
So the only dollar signs of the result are those of the values, and the result of
putting the signs and the names back is the text that was cut.

## Main definitions

* `Template.Cut`: Literal stretches, each but the first behind a name.
* `Template.Cut.ofText`: A text, cut at its dollar signs.
* `Template.Cut.weave`: The stretches with other texts between them.

## Theorems

* `Template.Cut.weave_names`: Nothing is lost in cutting.
* `Template.Cut.weave_inj`: Texts of known lengths can be read off.
* `Template.Cut.dollar_mem_weave_iff`: Dollar signs come from what is put in.
* `Template.Cut.substitute_eq`: Filling in puts the values between the stretches.
* `Template.Cut.names_lines`: The names are cut out line by line.
-/

namespace TestWrappers

namespace Template

/-- Literal stretches of a text, and the names between them. -/
structure Cut where
  /-- The stretch in front of the first name. -/
  first : List Char
  /-- The names, each with the stretch behind it. -/
  parts : List (List Char × List Char)
deriving DecidableEq, Repr

namespace Cut

/-- Cut a text at its dollar signs. What is cut out with a sign are the characters
    behind it that can be part of a name. -/
def ofText : List Char → Cut
  | [] => ⟨[], []⟩
  | c :: cs =>
    if c = '$' then
      ⟨[], ((ofText cs).first.takeWhile Identifier.isPart,
        (ofText cs).first.dropWhile Identifier.isPart) :: (ofText cs).parts⟩
    else
      ⟨c :: (ofText cs).first, (ofText cs).parts⟩

/-- The names that are cut out, in their order. -/
def names (cut : Cut) : List String := cut.parts.map fun part => String.ofList part.1

/-- The stretches with texts put between them, in their order. -/
def weave (cut : Cut) (texts : List (List Char)) : List Char :=
  cut.first ++ (List.zipWith (fun text part => text ++ part.2) texts cut.parts).flatten

/-- The pieces that the cut text is written from. -/
def pieces (cut : Cut) : List Piece :=
  .literal cut.first :: cut.parts.flatMap fun part => [.bare part.1, .literal part.2]

theorem ofText_dollar (cs : List Char) :
    ofText ('$' :: cs) =
      ⟨[], ((ofText cs).first.takeWhile Identifier.isPart,
        (ofText cs).first.dropWhile Identifier.isPart) :: (ofText cs).parts⟩ := by
  rw [ofText, if_pos rfl]

theorem ofText_cons {c : Char} (h : c ≠ '$') (cs : List Char) :
    ofText (c :: cs) = ⟨c :: (ofText cs).first, (ofText cs).parts⟩ := by
  rw [ofText, if_neg h]

/-- Texts that belong to the names are put between the stretches. -/
theorem weave_map (cut : Cut) (text : List Char → List Char) :
    cut.weave (cut.parts.map fun part => text part.1) =
      cut.first ++ cut.parts.flatMap fun part => text part.1 ++ part.2 := by
  unfold weave
  rw [List.zipWith_map_left, List.zipWith_self, List.flatMap]

theorem length_zipWith_parts {texts : List (List Char)} {parts : List (List Char × List Char)}
    (hlength : texts.length = parts.length) :
    (List.zipWith (fun text part => text ++ part.2) texts parts).flatten.length =
      (parts.flatMap Prod.snd).length + texts.flatten.length := by
  induction texts generalizing parts with
  | nil =>
    rw [List.length_eq_zero_iff.mp hlength.symm]
    rfl
  | cons text texts ih =>
    cases parts with
    | nil => exact absurd hlength (Nat.succ_ne_zero _)
    | cons part parts =>
      rw [List.zipWith_cons_cons, List.flatten_cons, List.flatten_cons, List.flatMap_cons]
      simp only [List.length_append, ih (Nat.succ.inj hlength)]
      omega

/-- The stretches with texts between them are as long as the texts together, and a
    length that does not depend on these. -/
theorem length_weave (cut : Cut) {texts : List (List Char)}
    (h : texts.length = cut.parts.length) :
    (cut.weave texts).length =
      cut.first.length + (cut.parts.flatMap Prod.snd).length + texts.flatten.length := by
  rw [weave, List.length_append, length_zipWith_parts h, Nat.add_assoc]

theorem zipWith_parts_inj {texts others : List (List Char)}
    {parts : List (List Char × List Char)} (hlength : texts.length = parts.length)
    (hlengths : texts.map List.length = others.map List.length)
    (heq : (List.zipWith (fun text part => text ++ part.2) texts parts).flatten =
      (List.zipWith (fun text part => text ++ part.2) others parts).flatten) : texts = others := by
  induction texts generalizing others parts with
  | nil => exact (List.map_eq_nil_iff.mp hlengths.symm).symm
  | cons text texts ih =>
    cases others with
    | nil => exact absurd hlengths (List.cons_ne_nil _ _)
    | cons other others =>
      cases parts with
      | nil => exact absurd hlength (Nat.succ_ne_zero _)
      | cons part parts =>
        rcases List.cons.inj hlengths with ⟨hfirst, hrest⟩
        simp only [List.zipWith_cons_cons, List.flatten_cons, List.append_assoc] at heq
        rcases List.append_inj heq hfirst with ⟨rfl, hbehind⟩
        rw [ih (Nat.succ.inj hlength) hrest (List.append_cancel_left hbehind)]

/-- Texts of known lengths can be read off from between the stretches. -/
theorem weave_inj (cut : Cut) {texts others : List (List Char)}
    (h : texts.length = cut.parts.length)
    (hlengths : texts.map List.length = others.map List.length)
    (heq : cut.weave texts = cut.weave others) : texts = others :=
  zipWith_parts_inj h hlengths (List.append_cancel_left heq)

/-- With the signs and the names put back the text is whole again. -/
theorem weave_names (cs : List Char) :
    (ofText cs).weave ((ofText cs).parts.map fun part => '$' :: part.1) = cs := by
  rw [weave_map]
  induction cs with
  | nil => rfl
  | cons c cs ih =>
    by_cases hc : c = '$'
    · rw [hc, ofText_dollar, List.flatMap_cons, List.nil_append, List.cons_append,
        List.takeWhile_append_dropWhile, List.cons_append, ih]
    · rw [ofText_cons hc, List.cons_append, ih]

/-- No stretch has a dollar sign. -/
theorem dollar_notMem (cs : List Char) :
    '$' ∉ (ofText cs).first ∧ ∀ part ∈ (ofText cs).parts, '$' ∉ part.2 := by
  induction cs with
  | nil => exact ⟨List.not_mem_nil, fun _ hmem => absurd hmem List.not_mem_nil⟩
  | cons c cs ih =>
    rcases ih with ⟨hfirst, hparts⟩
    by_cases hc : c = '$'
    · rw [hc, ofText_dollar]
      refine ⟨List.not_mem_nil, List.forall_mem_cons.mpr ⟨fun hmem => hfirst ?_, hparts⟩⟩
      exact (List.dropWhile_suffix _).subset hmem
    · rw [ofText_cons hc]
      refine ⟨fun hmem => ?_, hparts⟩
      rcases List.mem_cons.mp hmem with heq | hin
      · exact hc heq.symm
      · exact hfirst hin

/-- No stretch behind a name begins with a character that would belong to the name. -/
theorem not_isPart_of_mem_parts (cs : List Char) :
    ∀ part ∈ (ofText cs).parts, ∀ c ∈ part.2.head?, Identifier.isPart c = false := by
  induction cs with
  | nil => exact fun _ hmem => absurd hmem List.not_mem_nil
  | cons c cs ih =>
    by_cases hc : c = '$'
    · rw [hc, ofText_dollar]
      exact List.forall_mem_cons.mpr
        ⟨fun _ => Identifier.not_isPart_of_mem_head?_dropWhile, ih⟩
    · rw [ofText_cons hc]
      exact ih

theorem dollar_mem_zipWith_iff {texts : List (List Char)} {parts : List (List Char × List Char)}
    (hlength : texts.length = parts.length) (hparts : ∀ part ∈ parts, '$' ∉ part.2) :
    '$' ∈ (List.zipWith (fun text part => text ++ part.2) texts parts).flatten ↔
      ∃ text ∈ texts, '$' ∈ text := by
  induction texts generalizing parts with
  | nil => simp only [List.zipWith_nil_left, List.flatten_nil, List.not_mem_nil, false_and,
      exists_false]
  | cons text texts ih =>
    cases parts with
    | nil => exact absurd hlength (Nat.succ_ne_zero _)
    | cons part parts =>
      rcases List.forall_mem_cons.mp hparts with ⟨hpart, hrest⟩
      rw [List.zipWith_cons_cons, List.flatten_cons, List.mem_append, List.mem_append,
        ih (Nat.succ.inj hlength) hrest, or_iff_left hpart, List.exists_mem_cons_iff]

/-- Dollar signs come from what is put in. -/
theorem dollar_mem_weave_iff (cs : List Char) {texts : List (List Char)}
    (h : texts.length = (ofText cs).parts.length) :
    '$' ∈ (ofText cs).weave texts ↔ ∃ text ∈ texts, '$' ∈ text := by
  rcases dollar_notMem cs with ⟨hfirst, hparts⟩
  unfold weave
  rw [List.mem_append, dollar_mem_zipWith_iff h hparts]
  exact or_iff_right hfirst

theorem written_of_dollar_notMem {text : List Char} (h : '$' ∉ text) :
    (Piece.literal text).written = text := by
  rw [Piece.written]
  induction text with
  | nil => rfl
  | cons c text ih =>
    have hc : c ≠ '$' := fun heq => h (heq ▸ List.mem_cons_self)
    rw [List.flatMap_cons, Piece.writtenChar, if_neg hc,
      ih fun hin => h (List.mem_cons_of_mem c hin), List.singleton_append]

theorem written_parts {parts : List (List Char × List Char)} (h : ∀ part ∈ parts, '$' ∉ part.2) :
    (parts.flatMap fun part => [Piece.bare part.1, .literal part.2]).flatMap Piece.written =
      parts.flatMap fun part => '$' :: part.1 ++ part.2 := by
  rw [List.flatMap_assoc]
  refine List.flatMap_congr fun part hpart => ?_
  rw [List.flatMap_cons, List.flatMap_singleton, written_of_dollar_notMem (h part hpart),
    Piece.written]

/-- The text is written from its pieces. -/
theorem written_pieces (cs : List Char) : (ofText cs).pieces.flatMap Piece.written = cs := by
  rcases dollar_notMem cs with ⟨hfirst, hparts⟩
  have hwhole := weave_names cs
  rw [weave_map] at hwhole
  rw [pieces, List.flatMap_cons, written_of_dollar_notMem hfirst, written_parts hparts, hwhole]

theorem legible_parts {parts : List (List Char × List Char)}
    (hnames : ∀ part ∈ parts, Identifier.IsName part.1) (hparts : ∀ part ∈ parts, '$' ∉ part.2)
    (hends : ∀ part ∈ parts, ∀ c ∈ part.2.head?, Identifier.isPart c = false) :
    Piece.Legible (parts.flatMap fun part => [.bare part.1, .literal part.2]) := by
  induction parts with
  | nil => exact trivial
  | cons part parts ih =>
    rcases List.forall_mem_cons.mp hnames with ⟨hname, hnames⟩
    rcases List.forall_mem_cons.mp hparts with ⟨hpart, hparts⟩
    rcases List.forall_mem_cons.mp hends with ⟨hend, hends⟩
    rw [List.flatMap_cons]
    refine ⟨hname, fun c hc => ?_, ih hnames hparts hends⟩
    -- Behind the name stands its stretch, or the sign in front of the next name.
    change c ∈ (Piece.written (.literal part.2) ++
      (parts.flatMap fun part => [.bare part.1, .literal part.2]).flatMap Piece.written).head? at hc
    rw [written_of_dollar_notMem hpart, written_parts hparts, List.head?_append, Option.mem_def,
      Option.or_eq_some_iff] at hc
    rcases hc with hin | ⟨_, hin⟩
    · exact hend c hin
    · cases parts with
      | nil => cases hin
      | cons other parts => exact Identifier.not_isPart_of_mem_head?_cons (by decide) hin

theorem fill_parts {values : Bindings} {inserted : List String}
    {parts : List (List Char × List Char)}
    (h : (parts.map fun part => values (String.ofList part.1)) = inserted.map some) :
    fill values (parts.flatMap fun part => [.bare part.1, .literal part.2]) =
      .ok (List.zipWith (fun text part => text ++ part.2) (inserted.map String.toList)
        parts).flatten := by
  induction parts generalizing inserted with
  | nil =>
    rw [List.zipWith_nil_right]
    rfl
  | cons part parts ih =>
    cases inserted with
    | nil => exact absurd h (List.cons_ne_nil _ _)
    | cons value inserted =>
      rcases List.cons.inj h with ⟨hvalue, hrest⟩
      rw [List.flatMap_cons, fill_append, ih hrest, List.map_cons, List.zipWith_cons_cons,
        List.flatten_cons]
      simp only [fill, Piece.value?, hvalue, Option.map_some, Except.map, Except.bind,
        List.append_nil]

/-- Filling in a text whose names are names with values puts the values between the
    stretches. -/
theorem substitute_eq {text : String} {values : Bindings} {inserted : List String}
    (hnames : ∀ part ∈ (ofText text.toList).parts, Identifier.IsName part.1)
    (hvalues : (ofText text.toList).names.map values = inserted.map some) :
    substitute text values =
      .ok (String.ofList ((ofText text.toList).weave (inserted.map String.toList))) := by
  have hlegible : Piece.Legible (ofText text.toList).pieces :=
    legible_parts hnames (dollar_notMem text.toList).2 (not_isPart_of_mem_parts text.toList)
  have hscan := Scan.ofText_written hlegible
  rw [names, List.map_map] at hvalues
  rw [written_pieces] at hscan
  rw [substitute_eq_ok_iff_scan, hscan, fill_merge, pieces, fill, fill_parts hvalues,
    String.toList_ofList]
  exact ⟨rfl, rfl⟩

theorem takeWhile_first (cs : List Char) :
    (ofText cs).first.takeWhile Identifier.isPart = cs.takeWhile Identifier.isPart := by
  induction cs with
  | nil => rfl
  | cons c cs ih =>
    by_cases hc : c = '$'
    · rw [hc, ofText_dollar]
      rfl
    · rw [ofText_cons hc, List.takeWhile_cons, List.takeWhile_cons, ih]

/-- A line break ends the name in front of it, so the names of a text are cut out
    line by line. -/
theorem names_append_newline (cs more : List Char) :
    (ofText (cs ++ '\n' :: more)).names = (ofText cs).names ++ (ofText more).names := by
  induction cs with
  | nil =>
    rw [List.nil_append, ofText_cons (by decide)]
    rfl
  | cons c cs ih =>
    rw [List.cons_append]
    by_cases hc : c = '$'
    · simp only [hc, ofText_dollar, takeWhile_first, Identifier.takeWhile_append_newline, names,
        List.map_cons, List.cons_append]
      exact congrArg _ ih
    · rw [ofText_cons hc, ofText_cons hc]
      exact ih

/-- The names of lines are those of each line. -/
theorem names_lines (lines : List String) :
    (ofText (lines.flatMap fun line => line.toList ++ ['\n'])).names =
      lines.flatMap fun line => (ofText line.toList).names := by
  induction lines with
  | nil => rfl
  | cons line lines ih =>
    rw [List.flatMap_cons, List.append_assoc, List.singleton_append, names_append_newline, ih,
      List.flatMap_cons]

/-- The names of lines, where those of the first line are known. -/
theorem names_ofList_cons {cs : List Char} {lines : List String} {first more all : List String}
    (hfirst : (ofText cs).names = first)
    (hmore : (lines.flatMap fun line => (ofText line.toList).names) = more)
    (hall : first ++ more = all) :
    ((String.ofList cs :: lines).flatMap fun line => (ofText line.toList).names) = all := by
  rw [List.flatMap_cons, String.toList_ofList, hfirst, hmore, hall]

end Cut

end Template

end TestWrappers
