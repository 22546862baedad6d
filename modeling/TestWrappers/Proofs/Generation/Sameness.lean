import Mathlib.Data.List.Forall2
import TestWrappers.Proofs.Generation.Outputs
import TestWrappers.Proofs.Path.Sameness

/-!
# Layouts That Are the Same

Two layouts are the same exactly if all that follows from them is.

A layout is used in two ways. It is taken from a root, and its two directories are
continued to those of the configurations. Both put a fixed end behind a path, and an end
that does not say where to start can be taken off again. So nothing about a root or a
layout gets lost on the way, however they are spelled.

The directories of one layout are told apart by the same ends: behind the directory of
the layout each of them says two names more, and no two say the same names.

## Theorems

* `Configuration.sameAs_of_of?`: Configurations of one pair are the same if their layouts
  are.
* `Layout.sameAs_of_forall₂`: The configurations of a layout determine it.
* `Configuration.eq_of_components_prefix`: No directory of a configuration continues
  another one.
* `Layout.sameAs_iff_configurations`: What roots, layouts and configurations tell of
  each other.
-/

namespace TestWrappers

namespace Configuration

/-- What the names of fixtures, toolchains and tools say is not where to start. -/
theorem opening_eq_nil {toolchain : Toolchain} (h : toolchain ∈ Toolchain.all) (tool : Tool) :
    (Path.ofString toolchain.fixture).opening = [] ∧
      (Path.ofString toolchain.name).opening = [] ∧ (Path.ofString tool.name).opening = [] := by
  have htoolchains : ∀ toolchain ∈ Toolchain.all,
      (Path.ofString toolchain.fixture).opening = [] ∧
        (Path.ofString toolchain.name).opening = [] := by decide
  refine ⟨(htoolchains toolchain h).1, (htoolchains toolchain h).2, ?_⟩
  cases tool <;> decide

/-- The configurations of a pair for two layouts are the same if the layouts are. -/
theorem sameAs_of_of? {a b : Layout} {toolchain : Toolchain} (h : toolchain ∈ Toolchain.all)
    {tool : Tool} {c d : Configuration} (hc : of? a toolchain tool = some c)
    (hd : of? b toolchain tool = some d) : c.sameAs d = a.sameAs b := by
  rcases opening_eq_nil h tool with ⟨hfixture, hname, htool⟩
  rcases Option.map_eq_some_iff.mp hc with ⟨constant, hconstant, rfl⟩
  rcases Option.map_eq_some_iff.mp hd with ⟨constant', hconstant', rfl⟩
  rw [hconstant, Option.some.injEq] at hconstant'
  unfold sameAs Layout.sameAs
  -- The tool, its constant and the toolchain do not depend on the layout.
  rw [hconstant', Path.sameAs_join _ _ hfixture, Path.sameAs_join _ _ htool,
    Path.sameAs_join _ _ hname]
  simp only [beq_self_eq_true, Bool.true_and]

/-- A pair has a configuration for both layouts or for neither, and they are the same if
    the layouts are. -/
theorem rel_sameAs {a b : Layout} (hsame : a.sameAs b = true) {toolchain : Toolchain}
    (h : toolchain ∈ Toolchain.all) (tool : Tool) :
    Option.Rel (fun c d => sameAs c d = true) (of? a toolchain tool) (of? b toolchain tool) := by
  cases hconstant : tool.constant? toolchain with
  | none =>
    rw [of?, of?, hconstant]
    exact .none
  | some constant =>
    have hof : ∀ layout, ∃ config, of? layout toolchain tool = some config := fun layout => by
      rw [of?, hconstant]
      exact ⟨_, rfl⟩
    rcases hof a with ⟨c, hc⟩
    rcases hof b with ⟨d, hd⟩
    rw [hc, hd]
    exact .some ((sameAs_of_of? h hc hd).trans hsame)

variable {layout : Layout} {config other : Configuration}

/-- The directory of a configuration says what that of its layout says, and two names
    more. -/
theorem components_outputDir (h : config ∈ configurations layout) :
    ∃ outer inner : Name, config.folders = [inner, outer] ∧ config.outputDir.components =
      layout.outputDir.components ++ [.name outer.bytes, .name inner.bytes] := by
  rcases outputDir_of_mem h with ⟨outer, inner, hfolders, hpath⟩
  refine ⟨outer, inner, hfolders, ?_⟩
  rw [hpath, Path.components_join, Path.components_join, List.append_assoc]
  rfl

/-- No directory of a configuration goes on from that of another one. -/
theorem eq_of_components_prefix (h : config ∈ configurations layout)
    (h' : other ∈ configurations layout)
    (hfront : config.outputDir.components <+: other.outputDir.components) : config = other := by
  rcases components_outputDir h with ⟨outer, inner, hfolders, hsaid⟩
  rcases components_outputDir h' with ⟨outer', inner', hfolders', hsaid'⟩
  rw [hsaid, hsaid', List.prefix_append_right_inj] at hfront
  -- Both go on from the directory of the layout by two names, so the names agree.
  have hnames := hfront.eq_of_length rfl
  simp only [List.cons.injEq, Path.Component.name.injEq, and_true] at hnames
  refine List.inj_on_of_nodup_map (nodup_folders layout) h h' ?_
  rw [hfolders, hfolders', Name.eq_of_bytes_eq hnames.1, Name.eq_of_bytes_eq hnames.2]

end Configuration

namespace Layout

/-- The standard places say nothing of where to start. -/
theorem opening_standard : standard.testDir.opening = [] ∧ standard.outputDir.opening = [] := by
  decide

theorem sameAs_rooted (a b : Path) : (rooted a).sameAs (rooted b) = a.sameAs b := by
  unfold sameAs rooted
  rw [Path.sameAs_join a b opening_standard.1, Path.sameAs_join a b opening_standard.2,
    Bool.and_self]

/-- Layouts that are the same have the same configurations, one by one. -/
theorem forall₂_sameAs {a b : Layout} (h : a.sameAs b = true) :
    List.Forall₂ (fun c d => Configuration.sameAs c d = true) (configurations a)
      (configurations b) := by
  unfold configurations
  refine List.rel_flatMap (R := fun a b => a = b ∧ a ∈ Toolchain.all)
    (List.forall₂_same.mpr fun _ hmem => ⟨rfl, hmem⟩) ?_
  rintro toolchain _ ⟨rfl, htoolchain⟩
  refine List.rel_filterMap (R := Eq) ?_ (List.forall₂_refl Tool.all)
  rintro tool _ rfl
  exact Configuration.rel_sameAs h htoolchain tool

/-- The configurations of a layout determine it. -/
theorem sameAs_of_forall₂ {a b : Layout}
    (h : List.Forall₂ (fun c d => Configuration.sameAs c d = true) (configurations a)
      (configurations b)) : a.sameAs b = true := by
  -- The first one is enough, because both directories of the layout are in it.
  have hfirst : ∀ layout, ∃ config more, configurations layout = config :: more ∧
      Configuration.of? layout .dx .r8 = some config := fun _ => ⟨_, _, rfl, rfl⟩
  rcases hfirst a with ⟨c, cs, hcs, hc⟩
  rcases hfirst b with ⟨d, ds, hds, hd⟩
  rw [hcs, hds, List.forall₂_cons] at h
  rw [← Configuration.sameAs_of_of? List.mem_cons_self hc hd]
  exact h.1

/-- Paths are compared by where they start and by their segments that say something. Two
    standard layouts are then the same exactly if their roots are, two layouts exactly if
    their configurations are, and the five directories of one layout's configurations are
    apart: no two are the same, and none goes on from another one. -/
theorem sameAs_iff_configurations :
    (∀ a b : Path, a.sameAs b = true ↔ a.opening = b.opening ∧ a.said = b.said) ∧
    (∀ a b : Path, (rooted a).sameAs (rooted b) = true ↔ a.sameAs b = true) ∧
    (∀ a b : Layout,
      List.Forall₂ (fun c d => Configuration.sameAs c d = true) (configurations a)
        (configurations b) ↔ a.sameAs b = true) ∧
    ∀ layout : Layout, (configurations layout).length = 5 ∧
      (configurations layout).Pairwise fun c d =>
        c.outputDir.sameAs d.outputDir = false ∧
          ¬ c.outputDir.components <+: d.outputDir.components ∧
          ¬ d.outputDir.components <+: c.outputDir.components := by
  refine ⟨Path.sameAs_iff, fun a b => by rw [sameAs_rooted],
    fun a b => ⟨sameAs_of_forall₂, forall₂_sameAs⟩, fun layout =>
      ⟨length_configurations layout, ?_⟩⟩
  have hdistinct : (configurations layout).Pairwise (· ≠ ·) :=
    (Configuration.nodup_folders layout).of_map
  refine hdistinct.imp_of_mem fun {c d} hc hd hne => ⟨?_, fun hfront => ?_, fun hfront => ?_⟩
  · -- Equal paths would be prefixes of each other.
    refine beq_eq_false_iff_ne.mpr fun heq => hne ?_
    exact Configuration.eq_of_components_prefix hc hd (heq ▸ List.prefix_rfl)
  · exact hne (Configuration.eq_of_components_prefix hc hd hfront)
  · exact hne (Configuration.eq_of_components_prefix hd hc hfront).symm

end Layout

end TestWrappers
