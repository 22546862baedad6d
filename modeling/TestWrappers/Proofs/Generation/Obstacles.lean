import TestWrappers.Proofs.Generation.Failing

/-!
# Obstacles to a Run

Exactly when a run succeeds, and what it reports if it does not.

A run needs its test cases to be found. Then there are two kinds of obstacles: a
file in the place of a directory for wrappers, and the name of a test case that
leaves no room for the name of its file. There are no others where everything around
the directories is a directory itself and none of them is a link (`Accessible`).

The obstacles have an order. A name that is too long already stops the first
configuration, unless its directory cannot be reset. So a file in the place of a
later directory only shows if all names are short enough.

## Main definitions

* `Generation.Accessible`: Only files and long names are in the way of wrappers.
* `Generation.Blocked`: A file is in the place of a directory.

## Theorems

* `Generation.exists_generate_of_free`: Without obstacles a run succeeds.
* `Generation.exists_generate_of_long`: A long name stops the first configuration.
* `Generation.exists_generate_of_blocked`: A file stops its configuration.
* `Generation.generate_succeeds_iff`: When a run succeeds, and why if it does not.
-/

namespace TestWrappers

namespace Generation

variable {config : Configuration} {layout : Layout} {tests : List String} {files : FileSystem}

/-- Nothing but a file can be in the way of the directories of a layout. -/
structure Accessible (layout : Layout) (files : FileSystem) : Prop where
  /-- Paths may be as long as they want. -/
  unlimited : files.pathLimit = none
  /-- The directory of the layout is a matter of names. -/
  plain : layout.outputDir.IsPlain
  /-- Its path starts in a directory. -/
  start : files.tree.get? (layout.outputDir.route.start files.workingDirectory) = some .directory
  /-- Whatever is around the directories of the configurations is a directory. -/
  around : ∀ config ∈ configurations layout, files.tree.Open (place config files).tail
  /-- None of these directories is a link. -/
  notLink : ∀ config ∈ configurations layout,
    (files.tree.get? (place config files)).any isLink = false
  /-- The test cases that are found are found again whatever is done to these
      directories and to missing directories around them. -/
  stable : ∀ tests reached, testCases files (sourceDir layout) = .ok tests →
    FileSystem.Confined (places layout files) files reached →
    testCases reached (sourceDir layout) = .ok tests

/-- A file is in the place of the directory of a configuration. -/
def Blocked (config : Configuration) (files : FileSystem) : Prop :=
  ∃ contents, files.tree.get? (place config files) = some (.file contents)

theorem Accessible.undisturbed (h : Accessible layout files) : Undisturbed layout files :=
  ⟨h.plain.up_notMem, fun config hconfig => (h.around config hconfig).unlinked, h.stable⟩

/-- Without a file in its place, nothing but directories is at the place of a
    configuration and around it. -/
theorem Accessible.isOpen (h : Accessible layout files) (hconfig : config ∈ configurations layout)
    (hfree : ¬ Blocked config files) : files.tree.Open (place config files) := by
  rcases Configuration.route_of_mem hconfig h.plain.up_notMem with ⟨_, ⟨name, hlast⟩, _⟩
  have hplace : place config files = name :: (place config files).tail :=
    FileSystem.landing_eq_cons hlast files.workingDirectory
  intro outer entry hin hentry
  rw [hplace] at hin
  rcases Location.isWithin_cons_iff.mp hin with heq | hrest
  · rw [heq, ← hplace] at hentry
    cases entry with
    | directory => rfl
    | file contents => exact absurd ⟨contents, hentry⟩ hfree
    | link target =>
      have hlink := h.notLink config hconfig
      rw [hentry] at hlink
      cases hlink
  · exact h.around config hconfig outer entry hrest hentry

/-- The first of the elements with a property is in a list with one that has it. -/
theorem exists_first {α : Type} {p : α → Prop} {all : List α} (h : ∃ a ∈ all, p a) :
    ∃ earlier a later, all = earlier ++ a :: later ∧ (∀ other ∈ earlier, ¬ p other) ∧ p a := by
  induction all with
  | nil =>
    rcases h with ⟨_, hmem, _⟩
    exact absurd hmem List.not_mem_nil
  | cons a all ih =>
    by_cases ha : p a
    · exact ⟨[], a, all, rfl, fun _ hmem => absurd hmem List.not_mem_nil, ha⟩
    · rw [List.exists_mem_cons_iff] at h
      rcases ih (h.resolve_left ha) with ⟨earlier, first, later, rfl, hearlier, hfirst⟩
      exact ⟨a :: earlier, first, later, rfl, List.forall_mem_cons.mpr ⟨ha, hearlier⟩, hfirst⟩

/-- There is only one first element with a property. -/
theorem eq_of_first {α : Type} {p : α → Prop} {earlier later earlier' later' : List α} {a a' : α}
    (h : earlier ++ a :: later = earlier' ++ a' :: later') (hearlier : ∀ other ∈ earlier, ¬ p other)
    (ha : p a) (hearlier' : ∀ other ∈ earlier', ¬ p other) (ha' : p a') : a = a' := by
  rcases List.append_eq_append_iff.mp h with ⟨middle, rfl, hmore⟩ | ⟨middle, rfl, hmore⟩
  · cases middle with
    | nil => exact (List.cons.inj hmore).1
    | cons first middle =>
      rw [(List.cons.inj hmore).1] at ha
      exact absurd ha (hearlier' first (List.mem_append_right _ List.mem_cons_self))
  · cases middle with
    | nil => exact (List.cons.inj hmore).1.symm
    | cons first middle =>
      rw [(List.cons.inj hmore).1] at ha'
      exact absurd ha' (hearlier first (List.mem_append_right _ List.mem_cons_self))

/-- A run succeeds if nothing is in its way. -/
theorem exists_generate_of_free (events : List Event) (h : Accessible layout files)
    (htests : testCases files (sourceDir layout) = .ok tests)
    (hshort : ∀ test ∈ tests, (Utf8.encode test).length + 12 ≤ Name.maxLength)
    (hfree : ∀ config ∈ configurations layout, ¬ Blocked config files) :
    ∃ summary after, (generate layout : Run Summary) ⟨files, events⟩ = (.ok summary, after) :=
  exists_generate events h.undisturbed
    ⟨h.unlimited, h.plain, h.start, fun config hconfig => h.isOpen hconfig (hfree config hconfig),
      hshort⟩ htests

/-- The first name that is too long stops the first configuration, if its directory
    can be reset. -/
theorem exists_generate_of_long {earlier later : List String} {test : String}
    {left : List Configuration} {base : FileSystem} (events : List Event)
    (h : Accessible layout files)
    (htests : testCases files (sourceDir layout) = .ok (earlier ++ test :: later))
    (hearlier : ∀ other ∈ earlier, (Utf8.encode other).length + 12 ≤ Name.maxLength)
    (hlong : ¬ (Utf8.encode test).length + 12 ≤ Name.maxLength)
    (hconfigs : configurations layout = config :: left)
    (hreset : resetFiles files config.outputDir = (.ok (), base)) :
    ∃ after, (generate layout : Run Summary) ⟨files, events⟩ =
      (.error (.writing (wrapperFile config test) (.system .nameTooLong)), after) := by
  have hconfig : config ∈ configurations layout := hconfigs ▸ List.mem_cons_self
  have hsource : config.sourceDir = sourceDir layout := (Configuration.paths_of_mem hconfig).1
  have hfits : ∀ {cleared other}, resetFiles files config.outputDir = (.ok (), cleared) →
      (Fits config cleared other ↔ (Utf8.encode other).length + 12 ≤ Name.maxLength) := by
    intro cleared other hcleared
    have hlimit := FileSystem.pathLimit_resetFiles files config.outputDir
    rw [hcleared] at hlimit
    exact fits_iff (hlimit.trans h.unlimited)
  -- Of all endings only that at a name that is too long is left.
  have hfailed : ∃ after, (generateConfiguration config : Run Nat) ⟨files, events⟩ =
      (.error (.writing (wrapperFile config test) (.system .nameTooLong)), after) := by
    rcases hrun : (generateConfiguration config : Run Nat) ⟨files, events⟩ with
      ⟨result, reached, told⟩
    cases ending_of_run hconfig h.plain.up_notMem hrun with
    | unfound hfound =>
      rw [hsource, htests] at hfound
      cases hfound
    | uncleared _ hfailed =>
      rw [hreset] at hfailed
      cases (Prod.mk.inj hfailed).1
    | unfit hfound hcleared _ _ hothers hother =>
      rw [hsource, htests] at hfound
      have heq := eq_of_first (p := fun test => ¬ (Utf8.encode test).length + 12 ≤ Name.maxLength)
        (Except.ok.inj hfound) (fun other hmem => not_not_intro (hearlier other hmem)) hlong
        (fun other hmem => not_not_intro ((hfits hcleared).mp (hothers other hmem)))
        (mt (hfits hcleared).mpr hother)
      rw [heq]
      exact ⟨⟨reached, told⟩, rfl⟩
    | complete hfound hcleared _ _ hall =>
      rw [hsource, htests] at hfound
      rw [← Except.ok.inj hfound] at hall
      have hfit := hall test (List.mem_append_right _ List.mem_cons_self)
      exact absurd ((hfits hcleared).mp hfit) hlong
  rcases hfailed with ⟨after, hfailed⟩
  exact ⟨after, (Run.run_foldlM_eq_error_iff _ _ _ _ _ _).mpr ⟨[], config, left, ⟨0, 0⟩,
    ⟨files, events⟩, hconfigs, rfl, (run_generateNext_eq_error_iff _ _ _ _ _).mpr hfailed⟩⟩

/-- The first file in the place of a directory stops the configuration of that
    directory, if all names are short enough. -/
theorem exists_generate_of_blocked {earlier later : List Configuration} (events : List Event)
    (h : Accessible layout files) (htests : testCases files (sourceDir layout) = .ok tests)
    (hshort : ∀ test ∈ tests, (Utf8.encode test).length + 12 ≤ Name.maxLength)
    (hconfigs : configurations layout = earlier ++ config :: later)
    (hfree : ∀ other ∈ earlier, ¬ Blocked other files) (hblocked : Blocked config files) :
    ∃ after, (generate layout : Run Summary) ⟨files, events⟩ =
      (.error (.clearing config.outputDir (.system .notDirectory)), after) := by
  rcases hblocked with ⟨contents, hfile⟩
  exact exists_generate_of_file events h.undisturbed h.unlimited h.plain h.start htests hshort
    hconfigs (fun other hin =>
      h.isOpen (Configuration.mem_of_mem_front hconfigs hin) (hfree other hin)) hfile

/-- A run that succeeds has found test cases and has met no obstacle. -/
theorem free_of_generate {summary : Summary} {events : List Event} {after : World}
    (h : Accessible layout files)
    (hrun : (generate layout : Run Summary) ⟨files, events⟩ = (.ok summary, after)) :
    ∃ tests, testCases files (sourceDir layout) = .ok tests ∧
      (∀ test ∈ tests, (Utf8.encode test).length + 12 ≤ Name.maxLength) ∧
      ∀ config ∈ configurations layout, ¬ Blocked config files := by
  have hlayout : Undisturbed layout (World.mk files events).files := h.undisturbed
  rcases holds_of_generate hlayout hrun with ⟨tests, htests, _, hprogress⟩
  have hshort : ∀ test ∈ tests, (Utf8.encode test).length + 12 ≤ Name.maxLength := by
    have hfirst : ∃ config, config ∈ configurations layout := ⟨_, List.mem_cons_self⟩
    rcases hfirst with ⟨config, hconfig⟩
    exact fun test hmem => (fits_iff h.unlimited).mp (hprogress.fits config hconfig test hmem)
  refine ⟨tests, htests, hshort, fun config hconfig hblocked => ?_⟩
  -- The first file in the way would have stopped the run.
  have hsome : ∃ config ∈ configurations layout, Blocked config files := ⟨config, hconfig, hblocked⟩
  rcases exists_first hsome with ⟨earlier, first, later, hconfigs, hfree, hfirst⟩
  rcases exists_generate_of_blocked events h htests hshort hconfigs hfree hfirst with
    ⟨stopped, hstopped⟩
  rw [hrun] at hstopped
  cases (Prod.mk.inj hstopped).1

/-- Where only files and long names can be in the way, a run succeeds exactly if its
    test cases are found, no file is in the place of a directory for wrappers and no
    name of a test case is longer than 243 bytes. If the first directory can be reset,
    the first longer name is reported with the file that it would have had there. If
    no name is longer, the first directory with a file in its place is reported. -/
theorem generate_succeeds_iff (world : World) (h : Accessible layout world.files) :
    ((∃ summary after, (generate layout : Run Summary) world = (.ok summary, after)) ↔
      (∃ tests, (discover (sourceDir layout) : Run (List String)) world = (.ok tests, world) ∧
        ∀ test ∈ tests, (Utf8.encode test).length ≤ 243) ∧
      ∀ config ∈ configurations layout, ¬ Blocked config world.files) ∧
    (∀ tests reached,
      (discover (sourceDir layout) : Run (List String)) world = (.ok tests, world) →
      (reset ((layout.outputDir.join (.ofString "dx")).join (.ofString "r8")) : Run Unit) world =
        (.ok (), reached) →
      (∃ test ∈ tests, 243 < (Utf8.encode test).length) →
      ∃ earlier test later after, tests = earlier ++ test :: later ∧
        (∀ other ∈ earlier, (Utf8.encode other).length ≤ 243) ∧
        243 < (Utf8.encode test).length ∧
        (generate layout : Run Summary) world =
          (.error (.writing (((layout.outputDir.join (.ofString "dx")).join (.ofString "r8")).join
            (.ofString (TestCase.fileName ⟨test⟩))) (.system .nameTooLong)), after)) ∧
    (∀ tests, (discover (sourceDir layout) : Run (List String)) world = (.ok tests, world) →
      (∀ test ∈ tests, (Utf8.encode test).length ≤ 243) →
      (∃ config ∈ configurations layout, Blocked config world.files) →
      ∃ earlier config later after, configurations layout = earlier ++ config :: later ∧
        (∀ other ∈ earlier, ¬ Blocked other world.files) ∧ Blocked config world.files ∧
        (generate layout : Run Summary) world =
          (.error (.clearing config.outputDir (.system .notDirectory)), after)) ∧
    (configurations layout).map Configuration.outputDir =
      [("dx", "r8"), ("dx", "d8"), ("none", "r8"), ("none", "d8"), ("none", "r8cf")].map
        fun (outer, inner) => (layout.outputDir.join (.ofString outer)).join (.ofString inner) := by
  have hfound : ∀ tests, (discover (sourceDir layout) : Run (List String)) world =
      (.ok tests, world) ↔ testCases world.files (sourceDir layout) = .ok tests := by
    intro tests
    rw [run_discover]
    exact ⟨fun heq => (Prod.mk.inj heq).1, fun heq => congrArg (·, world) heq⟩
  have hroom : ∀ test : String, (Utf8.encode test).length ≤ 243 ↔
      (Utf8.encode test).length + 12 ≤ Name.maxLength := by
    intro test
    unfold Name.maxLength
    omega
  simp only [hfound, hroom, ← Nat.not_le]
  refine ⟨⟨fun hrun => ?_, fun hclear => ?_⟩, ?_, ?_, rfl⟩
  · rcases hrun with ⟨summary, after, hrun⟩
    rcases free_of_generate h hrun with ⟨tests, htests, hshort, hfree⟩
    exact ⟨⟨tests, htests, hshort⟩, hfree⟩
  · rcases hclear with ⟨⟨tests, htests, hshort⟩, hfree⟩
    exact exists_generate_of_free world.events h htests hshort hfree
  · intro tests reached htests hreset hlong
    have hfirst : ∃ first left, configurations layout = first :: left ∧
        first.outputDir = (layout.outputDir.join (.ofString "dx")).join (.ofString "r8") :=
      ⟨_, _, rfl, rfl⟩
    rcases hfirst with ⟨first, left, hconfigs, houtput⟩
    rcases exists_first hlong with ⟨earlier, test, later, rfl, hearlier, htest⟩
    have hearlier' := fun other hmem => not_not.mp (hearlier other hmem)
    rw [← houtput] at hreset ⊢
    rw [run_reset] at hreset
    rcases hbase : resetFiles world.files first.outputDir with ⟨cause | ⟨⟩, base⟩
    · rw [hbase] at hreset
      cases (Prod.mk.inj hreset).1
    · rcases exists_generate_of_long world.events h htests hearlier' htest hconfigs hbase with
        ⟨after, hrun⟩
      exact ⟨earlier, test, later, after, rfl, hearlier', htest, hrun⟩
  · intro tests htests hshort hblocked
    rcases exists_first hblocked with ⟨earlier, config, later, hconfigs, hfree, hfirst⟩
    rcases exists_generate_of_blocked world.events h htests hshort hconfigs hfree hfirst with
      ⟨after, hrun⟩
    exact ⟨earlier, config, later, after, hconfigs, hfree, hfirst, hrun⟩

theorem accessible_sampleFiles : Accessible sampleLayout sampleFiles :=
  ⟨rfl, by decide, by decide, by decide, by decide, undisturbed_sampleFiles.stable⟩

theorem accessible_blockedFiles : Accessible sampleLayout blockedFiles :=
  ⟨rfl, by decide, by decide, by decide, by decide, undisturbed_blockedFiles.stable⟩

/-- The run in the sample succeeds. With a file in the place of the second directory
    it stops there. -/
theorem generate_succeeds_sample :
    (∃ summary after, (generate sampleLayout : Run Summary) ⟨sampleFiles, []⟩ =
      (.ok summary, after)) ∧
    ∃ after, (generate sampleLayout : Run Summary) ⟨blockedFiles, []⟩ =
      (.error (.clearing (.ofString "o/dx/d8") (.system .notDirectory)), after) := by
  constructor
  · have hfree : ∀ config ∈ configurations sampleLayout, ¬ Blocked config sampleFiles := by
      intro config hconfig hblocked
      rcases hblocked with ⟨contents, hfile⟩
      have hdir := ready_sampleFiles.isOpen config hconfig _ _ (Location.isWithin_refl _) hfile
      cases hdir
    refine (generate_succeeds_iff ⟨sampleFiles, []⟩ accessible_sampleFiles).1.mpr
      ⟨⟨["a-b", "a_b"], ?_, by decide⟩, hfree⟩
    rw [run_discover, testCases_sampleFiles]
  · have hblocked : ∃ config ∈ configurations sampleLayout, Blocked config blockedFiles := by
      have hsecond : ∃ config ∈ configurations sampleLayout,
          config.outputDir = .ofString "o/dx/d8" := by
        decide
      rcases hsecond with ⟨config, hconfig, houtput⟩
      refine ⟨config, hconfig, ?_⟩
      unfold Blocked place
      rw [houtput]
      exact ⟨_, rfl⟩
    have htests : (discover (sourceDir sampleLayout) : Run (List String)) ⟨blockedFiles, []⟩ =
        (.ok ["a"], ⟨blockedFiles, []⟩) := by
      rw [run_discover, testCases_blockedFiles]
    rcases (generate_succeeds_iff ⟨blockedFiles, []⟩ accessible_blockedFiles).2.2.1 ["a"] htests
      (by decide) hblocked with ⟨earlier, config, later, after, hconfigs, _, ⟨_, hfile⟩, hrun⟩
    -- There is a file in the place of no other directory.
    have honly : ∀ config ∈ configurations sampleLayout,
        blockedFiles.tree.get? (place config blockedFiles) = none ∨
          config.outputDir = .ofString "o/dx/d8" := by
      decide
    rcases honly config (Configuration.mem_of_eq_append hconfigs) with hnone | houtput
    · rw [hnone] at hfile
      cases hfile
    · exact ⟨after, houtput ▸ hrun⟩

end Generation

end TestWrappers
