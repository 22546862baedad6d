import Mathlib.Algebra.GroupWithZero.Nat
import TestWrappers.Proofs.Generation.Identity
import TestWrappers.Proofs.Text.Occurrence

/-!
# A Wrapper Line by Line

The lines of a wrapper, each one a line of the template with its values put in.

A value may hold line breaks, so a wrapper can have more lines than the template. But
each line of the template is filled in by itself, and what comes of it ends in a line
break. That gives a wrapper in parts that are small enough to be looked at.

How often something occurs in a wrapper can be counted in this way. It occurs in the
template and in the values, and nowhere else if no occurrence goes across a border,
neither that of two lines nor that of a stretch of the template and a value.

## Main definitions

* `Template.Cut.keepsApart`: No occurrence goes across a border of a stretch.
* `Wrapper.value`: The value that is put in the place of a name.
* `Wrapper.filledLine`: A line of the template with its values.

## Theorems

* `Template.Cut.count_weave_ofText`: What is put in adds its own occurrences only.
* `Wrapper.render_eq_lines`: A wrapper is its filled lines.
* `Wrapper.count_filledLines`: The occurrences in some lines of a wrapper.
-/

namespace TestWrappers

open Occurrence

variable {pattern : List Char}

namespace Template

namespace Cut

/-- No occurrence of the pattern goes across a border of a stretch: the characters next
    to the border are in the wrong places of the pattern, or not in it. -/
def keepsApart (pattern : List Char) (cut : Cut) : Bool :=
  (cut.parts.isEmpty || cut.first.getLast?.all (!pattern.dropLast.contains ·)) &&
    cut.parts.all fun part =>
      part.2.head?.any (!pattern.tail.contains ·) &&
        part.2.getLast?.all (!pattern.dropLast.contains ·)

theorem apart_of_all {a : List Char} (h : a.getLast?.all (!pattern.dropLast.contains ·) = true)
    (b : List Char) : Apart pattern a b := by
  refine apart_of_last fun c hc hmem => ?_
  have hnot := (Option.all_eq_true _ _).mp h c hc
  rw [List.contains_iff_mem.mpr hmem] at hnot
  exact absurd hnot Bool.false_ne_true

theorem apart_of_any {b : List Char} (h : b.head?.any (!pattern.tail.contains ·) = true)
    (a more : List Char) : Apart pattern a (b ++ more) := by
  cases b with
  | nil => exact absurd h Bool.false_ne_true
  | cons c b =>
    refine apart_of_head fun d hd hmem => ?_
    rw [List.cons_append, List.head?_cons, Option.mem_def, Option.some.injEq] at hd
    rw [List.head?_cons, Option.any_some, hd, List.contains_iff_mem.mpr hmem] at h
    exact absurd h Bool.false_ne_true

theorem count_zipWith (hne : pattern ≠ []) {texts : List (List Char)}
    {parts : List (List Char × List Char)} (hlength : texts.length = parts.length)
    (hparts : ∀ part ∈ parts, (part.2.head?.any (!pattern.tail.contains ·) &&
      part.2.getLast?.all (!pattern.dropLast.contains ·)) = true) (ending : List Char) :
    count pattern ((List.zipWith (fun text part => text ++ part.2) texts parts).flatten ++ ending) =
      (texts.map (count pattern)).sum + (parts.map fun part => count pattern part.2).sum +
        count pattern ending := by
  induction texts generalizing parts with
  | nil =>
    rw [List.length_eq_zero_iff.mp hlength.symm]
    simp only [List.zipWith_nil_left, List.flatten_nil, List.nil_append, List.map_nil,
      List.sum_nil, Nat.zero_add]
  | cons text texts ih =>
    cases parts with
    | nil => exact absurd hlength (Nat.succ_ne_zero _)
    | cons part parts =>
      rcases List.forall_mem_cons.mp hparts with ⟨hpart, hrest⟩
      rcases (Bool.and_eq_true _ _).mp hpart with ⟨hhead, hlast⟩
      rw [List.zipWith_cons_cons, List.flatten_cons, List.append_assoc, List.append_assoc,
        count_append hne (apart_of_any hhead _ _), count_append hne (apart_of_all hlast _),
        ih (Nat.succ.inj hlength) hrest]
      simp only [List.map_cons, List.sum_cons]
      omega

/-- What is put between the stretches of a text adds its own occurrences of a pattern
    to those in the text, and no others. -/
theorem count_weave_ofText (hne : pattern ≠ []) {cs : List Char}
    (hapart : (ofText cs).keepsApart pattern = true)
    (hnames : ∀ part ∈ (ofText cs).parts, Identifier.IsName part.1)
    (hc : ∃ c ∈ pattern, c ≠ '$' ∧ Identifier.isPart c = false) {texts : List (List Char)}
    (hlength : texts.length = (ofText cs).parts.length) (ending : List Char) :
    count pattern ((ofText cs).weave texts ++ ending) =
      count pattern (cs ++ ending) + (texts.map (count pattern)).sum := by
  rcases (Bool.and_eq_true _ _).mp hapart with ⟨hfirst, hparts⟩
  rw [List.all_eq_true] at hparts
  -- A name with its sign has too few kinds of characters for an occurrence.
  have hsigns : ((ofText cs).parts.map fun part => count pattern ('$' :: part.1)).sum = 0 := by
    refine List.sum_eq_zero_iff_forall_eq_nat.mpr fun n hn => ?_
    rcases List.mem_map.mp hn with ⟨part, hpart, rfl⟩
    refine count_eq_zero_iff.mpr fun hin => ?_
    rcases hc with ⟨c, hmem, hsign, hname⟩
    rcases List.mem_cons.mp (hin.subset hmem) with heq | hinner
    · exact hsign heq
    · rw [(hnames part hpart).all_isPart c hinner] at hname
      exact absurd hname nofun
  have hwhole := weave_names cs
  unfold weave at hwhole ⊢
  by_cases hnil : (ofText cs).parts = []
  · rw [hnil] at hlength hwhole ⊢
    rw [List.length_eq_zero_iff.mp hlength]
    rw [List.map_nil] at hwhole
    rw [hwhole]
    rfl
  · have hempty : (ofText cs).parts.isEmpty = false := List.isEmpty_eq_false_iff.mpr hnil
    rw [hempty, Bool.false_or] at hfirst
    have hsplit : ∀ {texts : List (List Char)}, texts.length = (ofText cs).parts.length →
        count pattern ((ofText cs).first ++
          (List.zipWith (fun text part => text ++ part.2) texts (ofText cs).parts).flatten ++
            ending) = count pattern (ofText cs).first + ((texts.map (count pattern)).sum +
              ((ofText cs).parts.map fun part => count pattern part.2).sum +
                count pattern ending) := by
      intro texts hlength
      rw [List.append_assoc, count_append hne (apart_of_all hfirst _),
        count_zipWith hne hlength hparts]
    have htext := hsplit (List.length_map fun part : List Char × List Char => '$' :: part.1)
    rw [hwhole, List.map_map] at htext
    rw [hsplit hlength, htext]
    have hzero : ((ofText cs).parts.map (count pattern ∘ fun part => '$' :: part.1)).sum = 0 :=
      hsigns
    omega

end Cut

end Template

namespace Wrapper

variable {test : TestCase} {config : Configuration}

/-- The value that is put in the place of a name. -/
def value (test : TestCase) (config : Configuration) (name : String) : String :=
  (bindings test config name).getD ""

/-- A line of the template, with the values in the places of the names. -/
def filledLine (test : TestCase) (config : Configuration) (line : String) : List Char :=
  (Template.Cut.ofText line.toList).weave
    ((Template.Cut.ofText line.toList).names.map fun name => (value test config name).toList)

theorem isSome_bindings (test : TestCase) (config : Configuration) :
    ∀ name ∈ names, bindings test config (String.ofList name) =
      some (value test config (String.ofList name)) := by
  unfold names
  repeat refine List.forall_mem_cons.mpr ⟨rfl, ?_⟩
  exact List.forall_mem_nil _

theorem isName_of_mem_line {line : String} (h : line ∈ lines) :
    ∀ part ∈ (Template.Cut.ofText line.toList).parts, Identifier.IsName part.1 :=
  fun part hpart => isName_of_mem_names part.1
    (Template.mem_of_namesOnly (namesOnly_lines line h) part hpart)

/-- Each line of the template can be filled in by itself. -/
theorem substitute_line {line : String} (h : line ∈ lines) :
    Template.substitute line (bindings test config) =
      .ok (String.ofList (filledLine test config line)) := by
  have hvalues : (Template.Cut.ofText line.toList).names.map (bindings test config) =
      ((Template.Cut.ofText line.toList).names.map (value test config)).map some := by
    rw [List.map_map]
    refine List.map_congr_left fun name hname => ?_
    rcases List.mem_map.mp hname with ⟨part, hpart, rfl⟩
    exact isSome_bindings test config part.1
      (Template.mem_of_namesOnly (namesOnly_lines line h) part hpart)
  rw [Template.Cut.substitute_eq (isName_of_mem_line h) hvalues, List.map_map]
  rfl

theorem substitute_lines {some : List String} (h : ∀ line ∈ some, line ∈ lines) :
    Template.substitute (String.ofList (some.flatMap fun line => line.toList ++ ['\n']))
      (bindings test config) =
        .ok (String.ofList (some.flatMap fun line => filledLine test config line ++ ['\n'])) := by
  induction some with
  | nil => exact Template.substitute_of_dollar_notMem List.not_mem_nil _
  | cons line some ih =>
    rcases List.forall_mem_cons.mp h with ⟨hline, hrest⟩
    refine (Template.substitute_lines_cons line some _ _).mpr
      ⟨_, _, substitute_line hline, ih hrest, ?_⟩
    rw [List.flatMap_cons, String.ofList_append, String.ofList_append]

/-- A wrapper is its filled lines, each with a line break. -/
theorem render_eq_lines (test : TestCase) (config : Configuration) :
    render test config =
      .ok (String.ofList (lines.flatMap fun line => filledLine test config line ++ ['\n'])) :=
  substitute_lines fun _ => id

/-- The occurrences in several lines are those in each of them, if none goes on behind the
    end of a line. -/
theorem count_lines (hne : pattern ≠ []) (hbreak : '\n' ∉ pattern.dropLast)
    (text : String → List Char) (some : List String) :
    count pattern (some.flatMap fun line => text line ++ ['\n']) =
      (some.map fun line => count pattern (text line ++ ['\n'])).sum := by
  induction some with
  | nil => exact congrArg List.length (behind_nil hne)
  | cons line some ih =>
    have hend : Apart pattern (text line ++ ['\n'])
        (some.flatMap fun line => text line ++ ['\n']) := by
      refine apart_of_last fun c hlast => ?_
      rw [List.getLast?_concat, Option.mem_def, Option.some.injEq] at hlast
      exact hlast ▸ hbreak
    rw [List.flatMap_cons, count_append hne hend, ih, List.map_cons, List.sum_cons]

/-- The occurrences in some lines of a wrapper are those in the lines of the template
    and those in the values that are put in. -/
theorem count_filledLines (hne : pattern ≠ []) (hbreak : '\n' ∉ pattern.dropLast)
    (hc : ∃ c ∈ pattern, c ≠ '$' ∧ Identifier.isPart c = false) {some : List String}
    (h : ∀ line ∈ some, line ∈ lines)
    (hapart : ∀ line ∈ some, (Template.Cut.ofText line.toList).keepsApart pattern = true) :
    count pattern (some.flatMap fun line => filledLine test config line ++ ['\n']) =
      count pattern (some.flatMap fun line => line.toList ++ ['\n']) +
        ((some.flatMap fun line => (Template.Cut.ofText line.toList).names).map fun name =>
          count pattern (value test config name).toList).sum := by
  rw [count_lines hne hbreak, count_lines hne hbreak]
  induction some with
  | nil => rfl
  | cons line some ih =>
    rcases List.forall_mem_cons.mp h with ⟨hline, hrest⟩
    rcases List.forall_mem_cons.mp hapart with ⟨hfirst, hothers⟩
    have hlength : ((Template.Cut.ofText line.toList).names.map fun name =>
        (value test config name).toList).length =
          (Template.Cut.ofText line.toList).parts.length := by
      rw [List.length_map, Template.Cut.names, List.length_map]
    simp only [List.map_cons, List.sum_cons, List.flatMap_cons, List.map_append, List.sum_append]
    rw [ih hrest hothers, filledLine,
      Template.Cut.count_weave_ofText hne hfirst (isName_of_mem_line hline) hc hlength,
      List.map_map]
    have hvalues : ((Template.Cut.ofText line.toList).names.map (count pattern ∘ fun name =>
        (value test config name).toList)).sum = ((Template.Cut.ofText line.toList).names.map
          fun name => count pattern (value test config name).toList).sum := rfl
    omega

end Wrapper

end TestWrappers
