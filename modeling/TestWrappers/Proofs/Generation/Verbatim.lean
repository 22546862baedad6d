import TestWrappers.Proofs.Generation.Discovery
import TestWrappers.Proofs.Generation.Running
import TestWrappers.Proofs.Wrapper.Rendering

/-!
# No Failure Comes from a Template

Filling in the text of a wrapper has no part in the failures of a run.

Any wrapper can be filled in, whatever its test case is called and whatever its
configuration says. So what stops a configuration is the file system or a name that
is no text, and a run is stopped by one of its configurations.

## Theorems

* `Generation.kind_ne_of_forM`: No wrapper fails as a template.
* `Generation.kind_ne_of_generateConfiguration`: No configuration does.
* `Generation.render_verbatim`: A wrapper is the template with the values in their
  places, and no run fails as a template.
-/

namespace TestWrappers

namespace Generation

variable {config : Configuration} {failure : Failure} {world after : World}

theorem kind_ne_of_testCases {files : FileSystem} {source : Path}
    (h : testCases files source = .error failure) : failure.kind ≠ .template := by
  rcases testCases_eq_error h with ⟨cause, rfl, _⟩ | ⟨name, rfl, _⟩ <;> exact nofun

theorem kind_ne_of_writeWrapper {name : String}
    (h : (writeWrapper config name : Run Unit) world = (.error failure, after)) :
    failure.kind ≠ .template := by
  rcases Wrapper.exists_render_eq_ok ⟨name⟩ config with ⟨text, htext⟩
  rw [run_writeWrapper, htext] at h
  dsimp only at h
  split at h
  · rw [← Except.error.inj (Prod.mk.inj h).1]
    exact nofun
  · exact absurd (Prod.mk.inj h).1 nofun

theorem kind_ne_of_forM {names : List String}
    (h : (names.forM (writeWrapper config) : Run Unit) world = (.error failure, after)) :
    failure.kind ≠ .template := by
  induction names generalizing world with
  | nil => exact absurd (Prod.mk.inj h).1 nofun
  | cons name names ih =>
    rw [Run.run_forM_cons] at h
    rcases Run.run_bind_eq_error h with hfirst | ⟨_, _, _, hrest⟩
    · exact kind_ne_of_writeWrapper hfirst
    · exact ih hrest

/-- A configuration does not fail as a template. -/
theorem kind_ne_of_generateConfiguration
    (h : (generateConfiguration config : Run Nat) world = (.error failure, after)) :
    failure.kind ≠ .template := by
  rw [run_generateConfiguration] at h
  split at h
  · rename_i hfound
    rw [Except.error.inj (Prod.mk.inj h).1] at hfound
    exact kind_ne_of_testCases hfound
  · split at h
    · rw [← Except.error.inj (Prod.mk.inj h).1]
      exact nofun
    · rcases Run.run_bind_eq_error h with hwrite | ⟨_, _, _, hcount⟩
      · exact kind_ne_of_forM hwrite
      · rw [Run.run_pure] at hcount
        exact absurd (Prod.mk.inj hcount).1 nofun

/-- A run does not fail as a template: one of its configurations has failed. -/
theorem kind_ne_of_generate {layout : Layout}
    (h : (generate layout : Run Summary) world = (.error failure, after)) :
    failure.kind ≠ .template := by
  rcases (Run.run_foldlM_eq_error_iff _ _ _ _ _ _).mp h with
    ⟨_, config, _, summary, reached, _, _, hfailed⟩
  exact kind_ne_of_generateConfiguration
    ((run_generateNext_eq_error_iff summary config reached after failure).mp hfailed)

/-- Whatever the name of a test case is and whatever its configuration says, its
    wrapper is the template, cut at its ten names, with the ten values between the
    stretches as they are. So a dollar sign in it comes from a value, and neither a
    configuration nor a run ever fails as a template. -/
theorem render_verbatim (test : TestCase) (config : Configuration) :
    (∃ text, Wrapper.render test config = .ok text ∧
      text.toList = (Template.Cut.ofText Wrapper.source.toList).weave
        ((Wrapper.inserted test config).map String.toList) ∧
      ('$' ∈ text.toList ↔ ∃ value ∈ Wrapper.inserted test config, '$' ∈ value.toList)) ∧
    ((Template.Cut.ofText Wrapper.source.toList).weave
        ((Template.Cut.ofText Wrapper.source.toList).parts.map fun part => '$' :: part.1) =
          Wrapper.source.toList ∧
      (Template.Cut.ofText Wrapper.source.toList).names =
        ["testGeneratingToolchain", "compilerUnderTest", "testGeneratingToolchainEnum", "name",
          "testGeneratingToolchain", "testClassName", "testClassName", "name",
          "testGeneratingToolchainEnum", "compilerUnderTestEnum"] ∧
      '$' ∉ (Template.Cut.ofText Wrapper.source.toList).first ∧
      ∀ part ∈ (Template.Cut.ofText Wrapper.source.toList).parts, '$' ∉ part.2) ∧
    (∀ world failure after,
      (generateConfiguration config : Run Nat) world = (.error failure, after) →
        failure.kind ≠ .template) ∧
    ∀ layout world failure after,
      (generate layout : Run Summary) world = (.error failure, after) →
        failure.kind ≠ .template := by
  have hlength : ((Wrapper.inserted test config).map String.toList).length =
      (Template.Cut.ofText Wrapper.source.toList).parts.length := by
    rw [List.length_map, Wrapper.length_inserted]
  have hdollar := Template.Cut.dollar_mem_weave_iff Wrapper.source.toList hlength
  simp only [List.mem_map, exists_exists_and_eq_and] at hdollar
  refine ⟨⟨_, Wrapper.render_eq test config, String.toList_ofList, ?_⟩,
    ⟨Template.Cut.weave_names _, Wrapper.names_source, Template.Cut.dollar_notMem _⟩,
    fun _ _ _ h => kind_ne_of_generateConfiguration h, fun _ _ _ _ h => kind_ne_of_generate h⟩
  rw [String.toList_ofList]
  exact hdollar

end Generation

end TestWrappers
