import TestWrappers.Proofs.FileSystem.Refusing
import TestWrappers.Proofs.Generation.Discovery
import TestWrappers.Proofs.Generation.Filling
import TestWrappers.Proofs.Generation.Outputs
import TestWrappers.Proofs.Generation.Running
import TestWrappers.Proofs.Wrapper.Names
import TestWrappers.Proofs.Wrapper.Rendering

/-!
# How a Configuration Ends

All ways in which the work on one configuration can end, with what each of them
leaves.

The work ends early if no test cases are found or if the directory cannot be
reset. Once the directory has been reset it is empty and the wrappers come into
it, and then only one thing can go wrong: the file of a test case has a name or a
path that is too long. Filling in a wrapper never fails, and nothing that is in
the directory by then is in the way of another file.

A run is a function, so these endings are also the way to see that the work
succeeds: it does when the others are impossible.

## Main definitions

* `Generation.Fits`: The file of a test case is not too long.
* `Generation.Filled`: Wrappers have come into an empty directory.
* `Generation.Ending`: An end of the work on a configuration.

## Theorems

* `Generation.run_writeWrapper_of_filled`: One more wrapper.
* `Generation.filled_of_forM`: All wrappers up to one that is too long.
* `Generation.ending_of_run`: The work ends in one of these ways.
* `Generation.confined_of_ending`: What the work leaves alone.
* `Generation.holds_of_generateConfiguration`: What is left if it succeeds.
-/

namespace TestWrappers

namespace Generation

/-- Neither the path nor the name of the file of a test case is too long. -/
def Fits (config : Configuration) (files : FileSystem) (test : String) : Prop :=
  files.isTooLong (wrapperFile config test) = false ∧
    (Utf8.encode test).length + 12 ≤ Name.maxLength

/-- The wrappers of test cases have come into an empty directory, and nothing else
    has changed. -/
structure Filled (config : Configuration) (tests : List String) (here : Location)
    (base reached : FileSystem) : Prop where
  /-- The directory holds the wrappers. -/
  holds : Holds config tests here reached
  /-- Nothing else has changed. -/
  stocked : FileSystem.Stocked here base reached

variable {config : Configuration} {layout : Layout} {tests : List String} {test : String}
  {here : Location} {files base reached : FileSystem} {world after : World}

theorem fits_congr (h : reached.pathLimit = files.pathLimit) :
    Fits config reached test ↔ Fits config files test := by
  unfold Fits FileSystem.isTooLong
  rw [h]

/-- Where paths may be as long as they want, only the name of a file can be too
    long. -/
theorem fits_iff (h : files.pathLimit = none) :
    Fits config files test ↔ (Utf8.encode test).length + 12 ≤ Name.maxLength := by
  unfold Fits FileSystem.isTooLong
  rw [h]
  exact and_iff_right rfl

theorem Filled.start (h : FileSystem.Vacant config.outputDir here base) :
    Filled config [] here base base :=
  ⟨holds_of_vacant h, FileSystem.Stocked.refl here base⟩

/-- The file of a test case is written into the directory, or it is too long. -/
theorem write_wrapperFile (hplace : files.locate config.outputDir = .ok here)
    (hholds : Holds config tests here files) (hname : ∃ name : Name, name.bytes = Utf8.encode test)
    (contents : List UInt8) :
    (¬ Fits config files test ∧
      files.write (wrapperFile config test) contents = .error (.system .nameTooLong)) ∨
    (Fits config files test ∧ ∃ name : Name,
      name.bytes = Utf8.encode (TestCase.fileName ⟨test⟩) ∧
      files.tree.get? (name :: here) ≠ some .directory ∧
      files.write (wrapperFile config test) contents =
        .ok (files.withTree (files.tree.put (name :: here) (.file contents)))) := by
  rcases hname with ⟨testName, htest⟩
  rcases TestCase.valid_fileName (htest ▸ testName.valid) with ⟨hsep, hzero, hne, hvalid⟩
  have hlookup := ((FileSystem.locate_eq_ok_iff files config.outputDir here).mp hplace).1
  have hroute := FileSystem.route_join_eq hlookup hne hzero
  by_cases hlong : files.isTooLong (wrapperFile config test) = true
  · refine Or.inl ⟨fun hfits => absurd (hlong.symm.trans hfits.1) nofun, ?_⟩
    have herror : files.route (wrapperFile config test) = .error (.system .nameTooLong) :=
      hroute.trans (if_pos hlong)
    simp only [FileSystem.write, bind, Except.bind, herror]
  · have hwrite := FileSystem.write_join hplace hholds.directory hholds.not_link hsep hne
      (hroute.trans (if_neg hlong)) contents
    rcases Path.ofSegment?_cases (Utf8.encode (TestCase.fileName ⟨test⟩)) with
      ⟨hnil, _⟩ | ⟨hdot, _⟩ | ⟨hdots, _⟩ | ⟨_, _, ⟨name, hname, hstep⟩ | ⟨hnot, hstep⟩⟩
    · exact absurd hnil hne
    -- The name of a file is longer than the segments that stay or climb.
    · have hlength := congrArg List.length hdot
      rw [TestCase.length_encode_fileName, List.length_singleton] at hlength
      omega
    · have hlength := congrArg List.length hdots
      rw [TestCase.length_encode_fileName, List.length_cons, List.length_singleton] at hlength
      omega
    · -- Only wrappers are in the directory, so no directory has the name of the file.
      have hfree : files.tree.get? (name :: here) ≠ some .directory := by
        intro hdir
        rcases (hholds.entries _ _).mp hdir with ⟨_, _, _, _, heq⟩
        cases heq
      rw [hstep] at hwrite
      refine Or.inr ⟨⟨Bool.eq_false_iff.mpr hlong, hvalid.mp (hname ▸ name.valid)⟩, name, hname,
        hfree, hwrite.trans (if_neg hfree)⟩
    · rw [hstep] at hwrite
      exact Or.inl ⟨fun hfits => hnot (hvalid.mpr hfits.2), hwrite⟩

/-- One more wrapper is written, or it is too long and nothing changes. -/
theorem run_writeWrapper_of_filled (hvacant : FileSystem.Vacant config.outputDir here base)
    (hname : ∃ name : Name, name.bytes = Utf8.encode test)
    (hfilled : Filled config tests here base world.files) :
    (¬ Fits config base test ∧ (writeWrapper config test : Run Unit) world =
      (.error (.writing (wrapperFile config test) (.system .nameTooLong)), world)) ∨
    (Fits config base test ∧ ∃ after, (writeWrapper config test : Run Unit) world =
      (.ok (), after) ∧ Filled config (tests ++ [test]) here base after.files) := by
  rcases Wrapper.exists_render_eq_ok ⟨test⟩ config with ⟨text, htext⟩
  have hplace := hfilled.stocked.locate hvacant.located
  rw [run_writeWrapper, htext, ← fits_congr hfilled.stocked.pathLimit]
  rcases write_wrapperFile hplace hfilled.holds hname (Utf8.encode text) with
    ⟨hlong, hwrite⟩ | ⟨hfits, name, hbytes, hfree, hwrite⟩
  · exact Or.inl ⟨hlong, by simp only [hwrite]⟩
  · exact Or.inr ⟨hfits, _, by simp only [hwrite]; rfl,
      holds_put hfilled.holds hbytes htext hfree, hfilled.stocked.put (hvacant.empty name) _⟩

/-- The wrappers are written one after the other, up to the first one that is too
    long. -/
theorem filled_of_forM {more : List String} {result : Except Failure Unit}
    (hvacant : FileSystem.Vacant config.outputDir here base)
    (hnames : ∀ test ∈ more, ∃ name : Name, name.bytes = Utf8.encode test)
    (hfilled : Filled config tests here base world.files)
    (h : (more.forM (writeWrapper config) : Run Unit) world = (result, after)) :
    (result = .ok () ∧ Filled config (tests ++ more) here base after.files ∧
      ∀ test ∈ more, Fits config base test) ∨
    ∃ earlier test later, more = earlier ++ test :: later ∧
      result = .error (.writing (wrapperFile config test) (.system .nameTooLong)) ∧
      Filled config (tests ++ earlier) here base after.files ∧
      (∀ test ∈ earlier, Fits config base test) ∧ ¬ Fits config base test := by
  induction more generalizing tests world with
  | nil =>
    rcases Prod.mk.inj ((Run.run_forM_nil _ _).symm.trans h) with ⟨rfl, rfl⟩
    rw [List.append_nil]
    exact Or.inl ⟨rfl, hfilled, fun _ hmem => absurd hmem List.not_mem_nil⟩
  | cons test more ih =>
    rw [Run.run_forM_cons] at h
    rcases run_writeWrapper_of_filled hvacant (hnames test List.mem_cons_self) hfilled with
      ⟨hlong, hrun⟩ | ⟨hfits, reached, hrun, hreached⟩
    · rcases Prod.mk.inj ((Run.run_bind_of_error hrun _).symm.trans h) with ⟨rfl, rfl⟩
      refine Or.inr ⟨[], test, more, rfl, rfl, ?_, fun _ hmem => absurd hmem List.not_mem_nil,
        hlong⟩
      rw [List.append_nil]
      exact hfilled
    · rw [Run.run_bind_of_ok hrun] at h
      have hrest : ∀ other ∈ more, ∃ name : Name, name.bytes = Utf8.encode other :=
        fun other hmem => hnames other (List.mem_cons_of_mem test hmem)
      -- The first test case is one of those that fit, whatever becomes of the others.
      have hall : ∀ {others : List String}, (∀ other ∈ others, Fits config base other) →
          ∀ other ∈ test :: others, Fits config base other :=
        fun hothers => List.forall_mem_cons.mpr ⟨hfits, hothers⟩
      rcases ih hrest hreached h with
        ⟨hok, hafter, hothers⟩ | ⟨earlier, last, later, rfl, herror, hafter, hothers, hlong⟩
      · rw [List.append_assoc, List.singleton_append] at hafter
        exact Or.inl ⟨hok, hafter, hall hothers⟩
      · rw [List.append_assoc, List.singleton_append] at hafter
        exact Or.inr ⟨test :: earlier, last, later, rfl, herror, hafter, hall hothers, hlong⟩

/-- An end of the work on a configuration: the outcome, and the files behind it. -/
inductive Ending (config : Configuration) (files : FileSystem) :
    Except Failure Nat → FileSystem → Prop where
  /-- No test cases are found, and nothing has changed. -/
  | unfound {failure : Failure} (hfound : testCases files config.sourceDir = .error failure) :
    Ending config files (.error failure) files
  /-- The directory could not be reset. -/
  | uncleared {tests : List String} {cause : FileError} {left : FileSystem}
    (htests : testCases files config.sourceDir = .ok tests)
    (hreset : resetFiles files config.outputDir = (.error cause, left)) :
    Ending config files (.error (.clearing config.outputDir cause)) left
  /-- The directory has been reset, and it holds the wrappers of the test cases in
      front of the first one that is too long. -/
  | unfit {earlier later : List String} {test : String} {here : Location}
    {base reached : FileSystem}
    (htests : testCases files config.sourceDir = .ok (earlier ++ test :: later))
    (hreset : resetFiles files config.outputDir = (.ok (), base))
    (hvacant : FileSystem.Vacant config.outputDir here base)
    (hfilled : Filled config earlier here base reached)
    (hfits : ∀ other ∈ earlier, Fits config base other) (hlong : ¬ Fits config base test) :
    Ending config files (.error (.writing (wrapperFile config test) (.system .nameTooLong))) reached
  /-- The directory has been reset, and it holds the wrappers of all test cases. -/
  | complete {tests : List String} {here : Location} {base reached : FileSystem}
    (htests : testCases files config.sourceDir = .ok tests)
    (hreset : resetFiles files config.outputDir = (.ok (), base))
    (hvacant : FileSystem.Vacant config.outputDir here base)
    (hfilled : Filled config tests here base reached)
    (hfits : ∀ other ∈ tests, Fits config base other) :
    Ending config files (.ok tests.length) reached

/-- A reset that succeeds leads to an empty directory. -/
theorem exists_vacant_of_resetFiles (hconfig : config ∈ configurations layout)
    (hup : Path.Component.up ∉ layout.outputDir.components)
    (h : resetFiles files config.outputDir = (.ok (), base)) :
    ∃ here, FileSystem.Vacant config.outputDir here base := by
  rcases Configuration.route_of_mem hconfig hup with ⟨hclimb, ⟨name, hlast⟩, _⟩
  rcases FileSystem.resetFiles_eq_ok h with ⟨left, hremoved, hmake⟩
  exact (FileSystem.fresh_of_reset hremoved hmake (Path.bytes_ne_nil_of_last hlast)
    (Route.isStraight_of_climb_notMem hclimb)).vacant

/-- The work on a configuration ends in one of these ways. -/
theorem ending_of_run {result : Except Failure Nat} (hconfig : config ∈ configurations layout)
    (hup : Path.Component.up ∉ layout.outputDir.components)
    (h : (generateConfiguration config : Run Nat) world = (result, after)) :
    Ending config world.files result after.files := by
  rw [run_generateConfiguration] at h
  cases htests : testCases world.files config.sourceDir with
  | error failure =>
    simp only [htests] at h
    rcases Prod.mk.inj h with ⟨hresult, rfl⟩
    rw [← hresult]
    exact .unfound htests
  | ok tests =>
    rcases hreset : resetFiles world.files config.outputDir with ⟨cause | ⟨⟩, base⟩
    · simp only [htests, hreset] at h
      rcases Prod.mk.inj h with ⟨hresult, hafter⟩
      rw [← hresult, ← hafter]
      exact .uncleared htests hreset
    · simp only [htests, hreset] at h
      rcases exists_vacant_of_resetFiles hconfig hup hreset with ⟨here, hvacant⟩
      have hnames : ∀ test ∈ tests, ∃ name : Name, name.bytes = Utf8.encode test :=
        fun test => exists_name_of_mem_testCases htests
      rcases hwritten : (tests.forM (writeWrapper config) : Run Unit)
        ⟨base, world.events ++ announced config tests⟩ with ⟨written, reached⟩
      rcases filled_of_forM hvacant hnames (Filled.start hvacant) hwritten with
        ⟨hok, hfilled, hfits⟩ | ⟨earlier, test, later, hsplit, herror, hfilled, hfits, hlong⟩
      · rw [hok] at hwritten
        rw [Run.run_bind_of_ok hwritten, Run.run_pure] at h
        rcases Prod.mk.inj h with ⟨hresult, hafter⟩
        rw [← hresult, ← hafter]
        exact .complete htests hreset hvacant hfilled hfits
      · rw [herror] at hwritten
        rw [Run.run_bind_of_error hwritten] at h
        rcases Prod.mk.inj h with ⟨hresult, hafter⟩
        rw [← hresult, ← hafter]
        exact .unfit (hsplit ▸ htests) hreset hvacant hfilled hfits hlong

/-- A directory that has been reset is the one at which its path lands, if no link
    is on the way to it. -/
theorem emptied_of_vacant (hconfig : config ∈ configurations layout)
    (hup : Path.Component.up ∉ layout.outputDir.components)
    (hlinks : files.tree.Unlinked (config.outputDir.landing files.workingDirectory).tail)
    (hreset : resetFiles files config.outputDir = (.ok (), base))
    (hvacant : FileSystem.Vacant config.outputDir here base) :
    here = config.outputDir.landing files.workingDirectory ∧ FileSystem.Emptied here files base := by
  rcases Configuration.route_of_mem hconfig hup with ⟨hclimb, ⟨name, hlast⟩, hslash⟩
  rcases FileSystem.emptied_of_resetFiles hclimb hlast hslash hlinks hreset with
    ⟨hemptied, hlocate⟩
  have heq := Except.ok.inj (hvacant.located.symm.trans hlocate)
  exact ⟨heq, heq ▸ hemptied⟩

/-- However the work on a configuration ends, only the directory at which its path
    lands has changed, if no link is on the way to it. -/
theorem confined_of_ending {result : Except Failure Nat} (hconfig : config ∈ configurations layout)
    (hup : Path.Component.up ∉ layout.outputDir.components)
    (hlinks : files.tree.Unlinked (config.outputDir.landing files.workingDirectory).tail)
    (h : Ending config files result reached) :
    FileSystem.Confined [config.outputDir.landing files.workingDirectory] files reached := by
  have hfull : ∀ {base : FileSystem} {here : Location} {tests : List String},
      resetFiles files config.outputDir = (.ok (), base) →
      FileSystem.Vacant config.outputDir here base → Filled config tests here base reached →
      FileSystem.Confined [config.outputDir.landing files.workingDirectory] files reached := by
    intro base here tests hreset hvacant hfilled
    rcases emptied_of_vacant hconfig hup hlinks hreset hvacant with ⟨rfl, hemptied⟩
    exact hemptied.confined.trans hfilled.stocked.confined
  cases h with
  | unfound _ => exact FileSystem.Confined.refl _ files
  | uncleared _ hreset =>
    rcases Configuration.route_of_mem hconfig hup with ⟨hclimb, ⟨name, hlast⟩, hslash⟩
    exact (FileSystem.confined_of_resetFiles hclimb hlast hslash hlinks hreset).1
  | unfit _ hreset hvacant hfilled _ _ => exact hfull hreset hvacant hfilled
  | complete _ hreset hvacant hfilled _ => exact hfull hreset hvacant hfilled

/-- What a configuration leaves that succeeds: its directory holds the wrappers of
    the test cases that were found. None of their files is too long. -/
theorem holds_of_generateConfiguration {count : Nat} (hconfig : config ∈ configurations layout)
    (hup : Path.Component.up ∉ layout.outputDir.components)
    (hlinks : world.files.tree.Unlinked
      (config.outputDir.landing world.files.workingDirectory).tail)
    (h : (generateConfiguration config : Run Nat) world = (.ok count, after)) :
    ∃ tests, testCases world.files config.sourceDir = .ok tests ∧ count = tests.length ∧
      Holds config tests (config.outputDir.landing world.files.workingDirectory) after.files ∧
      after.files.locate config.outputDir =
        .ok (config.outputDir.landing world.files.workingDirectory) ∧
      ∀ test ∈ tests, Fits config world.files test := by
  cases ending_of_run hconfig hup h with
  | complete htests hreset hvacant hfilled hfits =>
    rcases emptied_of_vacant hconfig hup hlinks hreset hvacant with ⟨rfl, hemptied⟩
    exact ⟨_, htests, rfl, hfilled.holds, hfilled.stocked.locate hvacant.located,
      fun test hmem => (fits_congr hemptied.confined.pathLimit).mp (hfits test hmem)⟩

end Generation

end TestWrappers
