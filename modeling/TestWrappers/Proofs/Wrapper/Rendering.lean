import TestWrappers.Proofs.Template.Cutting
import TestWrappers.Wrapper

/-!
# The Text of a Wrapper

What the wrapper of a test case says, character for character.

The template of a wrapper is fixed, so whether it can be filled in depends on
nothing but which names have values. It is enough to see that every dollar sign
in it is followed by one of the six names, which is a question about each of its
lines: a name cannot go on behind the end of a line. Names and values themselves
are not looked at, whatever they contain.

So the template is cut at its ten names, and the ten values stand between the
stretches as they are. This holds of any test case and any configuration: a value
that looks like a reference is put in like any other.

## Main definitions

* `Template.NamesOnly`: Every dollar sign is followed by one of some names.
* `Wrapper.inserted`: The values that are put in, in their order.

## Theorems

* `Template.mem_of_namesOnly`: Such a text is cut at such names.
* `Wrapper.names_source`: The names that the template is cut at.
* `Wrapper.render_eq`: A wrapper is the template with the values in their places.
* `Wrapper.exists_render_eq_ok`: A wrapper can be filled in.
* `Wrapper.render_congr`: What shows in a wrapper.
-/

namespace TestWrappers

namespace Template

/-- Every dollar sign is followed by one of the names, and by nothing that would
    make the name longer. -/
def NamesOnly (names : List (List Char)) : List Char → Bool
  | [] => true
  | c :: cs =>
    (c != '$' || names.contains (cs.takeWhile Identifier.isPart)) && NamesOnly names cs

theorem namesOnly_ofList {names : List (List Char)} {cs : List Char}
    (h : NamesOnly names cs = true) : NamesOnly names (String.ofList cs).toList = true := by
  rw [String.toList_ofList]
  exact h

theorem namesOnly_append_newline (names : List (List Char)) (cs more : List Char) :
    NamesOnly names (cs ++ '\n' :: more) = (NamesOnly names cs && NamesOnly names more) := by
  induction cs with
  | nil => rfl
  | cons c cs ih =>
    -- A name in front of the break is the same with what follows it and without.
    rw [List.cons_append]
    simp only [NamesOnly, Identifier.takeWhile_append_newline, ih, Bool.and_assoc]

/-- Where every dollar sign is followed by one of some names, those are cut out. -/
theorem mem_of_namesOnly {names : List (List Char)} {cs : List Char}
    (h : NamesOnly names cs = true) : ∀ part ∈ (Cut.ofText cs).parts, part.1 ∈ names := by
  induction cs with
  | nil => exact fun _ hmem => absurd hmem List.not_mem_nil
  | cons c cs ih =>
    rcases (Bool.and_eq_true _ _).mp h with ⟨hname, hrest⟩
    by_cases hc : c = '$'
    · rw [hc] at hname ⊢
      rw [Cut.ofText_dollar]
      refine List.forall_mem_cons.mpr ⟨?_, ih hrest⟩
      rw [Cut.takeWhile_first]
      exact List.contains_iff_mem.mp hname
    · rw [Cut.ofText_cons hc]
      exact ih hrest

end Template

namespace Wrapper

/-- The names that the template of a wrapper refers to. -/
def names : List (List Char) :=
  [
    ['n', 'a', 'm', 'e'],
    ['c', 'o', 'm', 'p', 'i', 'l', 'e', 'r', 'U', 'n', 'd', 'e', 'r', 'T', 'e', 's', 't'],
    ['c', 'o', 'm', 'p', 'i', 'l', 'e', 'r', 'U', 'n', 'd', 'e', 'r', 'T', 'e', 's', 't',
      'E', 'n', 'u', 'm'],
    ['t', 'e', 's', 't', 'G', 'e', 'n', 'e', 'r', 'a', 't', 'i', 'n', 'g', 'T', 'o', 'o',
      'l', 'c', 'h', 'a', 'i', 'n'],
    ['t', 'e', 's', 't', 'G', 'e', 'n', 'e', 'r', 'a', 't', 'i', 'n', 'g', 'T', 'o', 'o',
      'l', 'c', 'h', 'a', 'i', 'n', 'E', 'n', 'u', 'm'],
    ['t', 'e', 's', 't', 'C', 'l', 'a', 's', 's', 'N', 'a', 'm', 'e']
  ]

theorem isName_of_mem_names : ∀ name ∈ names, Identifier.IsName name := by
  unfold names
  repeat refine List.forall_mem_cons.mpr ⟨⟨rfl, List.all_eq_true.mp rfl⟩, ?_⟩
  exact List.forall_mem_nil _

theorem namesOnly_lines : ∀ line ∈ lines, Template.NamesOnly names line.toList = true := by
  unfold lines
  repeat refine List.forall_mem_cons.mpr ⟨Template.namesOnly_ofList rfl, ?_⟩
  exact List.forall_mem_nil _

theorem namesOnly_source : Template.NamesOnly names source.toList = true := by
  -- No name goes across the end of a line, so the lines are looked at one by one.
  have hall : ∀ texts : List String, (∀ text ∈ texts, Template.NamesOnly names text.toList = true) →
      Template.NamesOnly names (texts.flatMap fun text => text.toList ++ ['\n']) = true := by
    intro texts htexts
    induction texts with
    | nil => rfl
    | cons text texts ih =>
      rw [List.flatMap_cons, List.append_assoc, List.singleton_append,
        Template.namesOnly_append_newline, htexts text List.mem_cons_self,
        ih fun other hmem => htexts other (List.mem_cons_of_mem text hmem)]
      rfl
  rw [toList_source]
  exact hall lines namesOnly_lines

/-- The values that are put into the template of a wrapper, in their order. -/
def inserted (test : TestCase) (config : Configuration) : List String :=
  [
    config.toolchain.name,
    config.tool.name,
    config.toolchain.constant,
    test.name,
    config.toolchain.name,
    test.className,
    test.className,
    test.name,
    config.toolchain.constant,
    config.toolConstant
  ]

/-- The names that the template is cut at. -/
theorem names_source : (Template.Cut.ofText source.toList).names =
    [
      "testGeneratingToolchain",
      "compilerUnderTest",
      "testGeneratingToolchainEnum",
      "name",
      "testGeneratingToolchain",
      "testClassName",
      "testClassName",
      "name",
      "testGeneratingToolchainEnum",
      "compilerUnderTestEnum"
    ] := by
  rw [toList_source, Template.Cut.names_lines]
  unfold lines
  repeat refine Template.Cut.names_ofList_cons rfl ?_ rfl
  rfl

theorem isName_of_mem_parts :
    ∀ part ∈ (Template.Cut.ofText source.toList).parts, Identifier.IsName part.1 :=
  fun part hpart =>
    isName_of_mem_names part.1 (Template.mem_of_namesOnly namesOnly_source part hpart)

/-- Each name is bound to the value that is put in its place. -/
theorem map_bindings (test : TestCase) (config : Configuration) :
    (Template.Cut.ofText source.toList).names.map (bindings test config) =
      (inserted test config).map some := by
  rw [names_source]
  rfl

theorem length_inserted (test : TestCase) (config : Configuration) :
    (inserted test config).length = (Template.Cut.ofText source.toList).parts.length := by
  have hlength := congrArg List.length (map_bindings test config)
  rw [List.length_map, List.length_map, Template.Cut.names, List.length_map] at hlength
  exact hlength.symm

/-- A wrapper is the template with the values in the places of the names. -/
theorem render_eq (test : TestCase) (config : Configuration) :
    render test config = .ok (String.ofList ((Template.Cut.ofText source.toList).weave
      ((inserted test config).map String.toList))) :=
  Template.Cut.substitute_eq isName_of_mem_parts (map_bindings test config)

/-- The wrapper of any test case can be filled in under any configuration. -/
theorem exists_render_eq_ok (test : TestCase) (config : Configuration) :
    ∃ text, render test config = .ok text :=
  ⟨_, render_eq test config⟩

/-- Only the toolchain, the tool and its constant show in a wrapper. -/
theorem render_congr (test : TestCase) {config config' : Configuration}
    (htoolchain : config.toolchain = config'.toolchain) (htool : config.tool = config'.tool)
    (hconstant : config.toolConstant = config'.toolConstant) :
    render test config = render test config' := by
  rw [render_eq, render_eq, inserted, inserted, htoolchain, htool, hconstant]

end Wrapper

end TestWrappers
