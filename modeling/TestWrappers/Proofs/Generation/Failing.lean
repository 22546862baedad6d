import TestWrappers.Proofs.Generation.Exact

/-!
# What a Failed Run Leaves

The whole effect of a run that fails.

The first failure ends a run, so its configurations fall into three groups: those
in front of the one that failed are complete, it has ended in one of its ways, and
those behind it are as they were. Whether test cases are found, and whether their
names leave room for the names of their files, is the same for all
configurations. So a failure of either kind strikes the first one, and only a
directory that cannot be reset can end a run later.

## Main definitions

* `Generation.Halt`: Why a run has failed, with what that says about the files.
* `Generation.blockedFiles`: A file in the place of the second directory.

## Theorems

* `Generation.halt_of_ending`: The failure of a configuration in its turn.
* `Generation.exists_generate_of_file`: A file in the way of a directory stops a
  run.
* `Generation.generate_halts`: What a failed run leaves.
-/

namespace TestWrappers

namespace Generation

variable {config : Configuration} {layout : Layout} {tests : List String}
  {complete left : List Configuration} {failure : Failure} {files reached further : FileSystem}
  {world after : World}

/-- Why a configuration has failed behind others that are complete. -/
inductive Halt (layout : Layout) (complete : List Configuration) (config : Configuration)
    (files after : FileSystem) : Failure → Prop where
  /-- The first configuration could not list the test cases. Nothing has changed. -/
  | listing {cause : FileError} (hfirst : complete = []) (hsame : after = files)
    (hlist : files.list (sourceDir layout) = .error cause) :
    Halt layout complete config files after (.listing (sourceDir layout) cause)
  /-- The first configuration has found a directory whose name is no text. Nothing
      has changed. -/
  | undecodableName {name : List UInt8} (hfirst : complete = []) (hsame : after = files)
    (hdir : files.isDirectory ((sourceDir layout).join ⟨name⟩) = true)
    (hname : Utf8.decode? name = none) :
    Halt layout complete config files after (.undecodableName ((sourceDir layout).join ⟨name⟩))
  /-- A file is in the place of the directory, and it is still there. -/
  | file {contents : List UInt8}
    (hfile : files.tree.get? (place config files) = some (.file contents))
    (hkept : after.tree.get? (place config files) = some (.file contents)) :
    Halt layout complete config files after (.clearing config.outputDir (.system .notDirectory))
  /-- A link that leads nowhere is in the place of the directory, and it is still
      there. -/
  | link {target : Path} (hlink : files.tree.get? (place config files) = some (.link target))
    (hkept : after.tree.get? (place config files) = some (.link target))
    (hgone : after.pathExists config.outputDir = false) :
    Halt layout complete config files after (.clearing config.outputDir (.system .alreadyExists))
  /-- The directory could not be made. Its path has a segment that is no name, or it
      does not start in a directory, or what is around its place is not all
      directories. Nothing has changed in its place. -/
  | unreachable {cause : FileError}
    (hblocked : ¬ (layout.outputDir.IsPlain ∧
      files.tree.get? (layout.outputDir.route.start files.workingDirectory) = some .directory ∧
      files.tree.Open (place config files).tail))
    (hkept : ∀ inner : Location, inner.isWithin (place config files) = true →
      after.tree.get? inner = files.tree.get? inner) :
    Halt layout complete config files after (.clearing config.outputDir cause)
  /-- The name of a test case leaves no room for the name of its file. The directory
      of the first configuration holds the wrappers of the test cases in front of
      it. -/
  | writing {earlier later : List String} {test : String} (hfirst : complete = [])
    (htests : testCases files (sourceDir layout) = .ok (earlier ++ test :: later))
    (hfits : ∀ other ∈ earlier, (Utf8.encode other).length + 12 ≤ Name.maxLength)
    (hlong : Name.maxLength < (Utf8.encode test).length + 12)
    (hlocated : after.locate config.outputDir = .ok (place config files))
    (hholds : Holds config earlier (place config files) after) :
    Halt layout complete config files after
      (.writing (wrapperFile config test) (.system .nameTooLong))

/-- With nothing but directories around its place, the directory of a configuration
    can be reset, or its path names an entry that is in the way. -/
theorem reset_or_locateEntry (hconfig : config ∈ configurations layout)
    (hlimit : files.pathLimit = none) (hplain : layout.outputDir.IsPlain)
    (hstart : files.tree.get? (layout.outputDir.route.start files.workingDirectory) =
      some .directory)
    (hopen : files.tree.Open (place config files).tail) :
    (∃ base, resetFiles files config.outputDir = (.ok (), base)) ∨
      files.locateEntry config.outputDir = .ok (place config files) := by
  rcases Configuration.route_of_mem hconfig hplain.up_notMem with ⟨_, ⟨name, hlast⟩, hslash⟩
  have hall := plain_of_mem hconfig hplain
  cases hentry : files.tree.get? (place config files) with
  | none =>
    refine Or.inl (reset_of_open hconfig hlimit hplain hstart fun outer entry hin houter => ?_)
    -- What is there stands around the place and not at it.
    unfold place at hin hentry hopen
    rw [FileSystem.landing_eq_cons hlast] at hin
    rcases Location.isWithin_cons_iff.mp hin with heq | hrest
    · rw [heq, ← FileSystem.landing_eq_cons hlast, hentry] at houter
      exact absurd houter nofun
    · exact hopen outer entry hrest houter
  | some entry =>
    have hroute := FileSystem.route_of_isPlain hlimit hall (Path.bytes_ne_nil_of_last hlast)
    exact Or.inr (FileSystem.locateEntry_of_get? hroute hlast hslash hall.climb_notMem
      hall.overlong_notMem hentry)

/-- Without test cases the first configuration has failed. -/
theorem complete_eq_nil {summary result : Summary} {cause : Failure}
    (hconfigs : configurations layout = complete ++ left)
    (hfound : testCases world.files (sourceDir layout) = .error cause)
    (h : (complete.foldlM generateNext summary : Run Summary) world = (.ok result, after)) :
    complete = [] := by
  cases complete with
  | nil => rfl
  | cons first more =>
    have hmem : first ∈ configurations layout := hconfigs ▸ List.mem_cons_self
    rcases exists_testCases_of_foldlM hmem h with ⟨tests, htests⟩
    rw [hfound] at htests
    exact absurd htests nofun

/-- Why the first configuration fails where no test cases are found. -/
theorem halt_of_unfound {cause : Failure} (hconfig : config ∈ configurations layout)
    (hfound : testCases files (sourceDir layout) = .error cause)
    (h : Ending config files (.error failure) further) :
    Halt layout [] config files further failure ∧ further = files := by
  have hsource : config.sourceDir = sourceDir layout := (Configuration.paths_of_mem hconfig).1
  rw [← hsource] at hfound
  cases h with
  | unfound hfailed =>
    refine ⟨?_, rfl⟩
    rw [hsource] at hfailed
    rcases testCases_eq_error hfailed with ⟨_, rfl, hlist⟩ | ⟨name, rfl, hdir, hname⟩
    · exact .listing rfl rfl hlist
    · exact .undecodableName rfl rfl hdir hname
  | uncleared htests _ =>
    rw [hfound] at htests
    exact absurd htests nofun
  | unfit htests _ _ _ _ _ =>
    rw [hfound] at htests
    exact absurd htests nofun

/-- Why a configuration fails in its turn, once the test cases have been found. -/
theorem halt_of_ending (hlayout : Undisturbed layout files) (hlimit : files.pathLimit = none)
    (htests : testCases files (sourceDir layout) = .ok tests)
    (hconfigs : configurations layout = complete ++ config :: left)
    (hprogress : Progress tests complete files reached)
    (h : Ending config reached (.error failure) further) :
    Halt layout complete config files further failure := by
  have hcomplete : ∀ other ∈ complete, other ∈ configurations layout :=
    fun _ => Configuration.mem_of_mem_front hconfigs
  have hconfig := Configuration.mem_of_eq_append hconfigs
  have hnew := (Configuration.notMem_of_eq_append hconfigs).1
  have hspread := hprogress.spread hcomplete
  have hcwd := hprogress.confined.workingDirectory
  have hlimit' := hprogress.confined.pathLimit.trans hlimit
  have hlinks := hlayout.unlinked_of_confined hconfig hspread
  rw [← place_congr hcwd] at hlinks
  have hfound : testCases reached config.sourceDir = .ok tests := by
    rw [(Configuration.paths_of_mem hconfig).1]
    exact hlayout.stable tests reached htests hspread
  rcases Configuration.route_of_mem hconfig hlayout.level with ⟨hclimb, ⟨name, hlast⟩, hslash⟩
  -- Nothing has changed in the directory before its turn.
  have hbefore : ∀ inner : Location, inner.isWithin (place config files) = true →
      reached.tree.get? inner = files.tree.get? inner := fun inner hinner =>
    get?_of_confined_places hcomplete hconfig hnew hprogress.confined hinner
  have hself := hbefore _ (Location.isWithin_refl _)
  cases h with
  | unfound hmissing =>
    rw [hfound] at hmissing
    exact absurd hmissing nofun
  | uncleared _ hreset =>
    have hkept := (FileSystem.confined_of_resetFiles hclimb hlast hslash hlinks hreset).2
    rw [hcwd] at hkept
    rcases FileSystem.resetFiles_eq_error hclimb hlast hslash hlinks hreset with
      ⟨contents, hfile, rfl, rfl⟩ | ⟨target, hlink, hgone, rfl, rfl⟩ | ⟨hunnamed, _⟩
    · rw [hcwd] at hfile
      exact .file (hself.symm.trans hfile) hfile
    · rw [hcwd] at hlink
      exact .link (hself.symm.trans hlink) hlink hgone
    · refine .unreachable (fun hfree => ?_) fun inner hinner =>
        (hkept inner hinner).trans (hbefore inner hinner)
      rcases hfree with ⟨hplain, hstart, hopen⟩
      have hopen' := hspread.isOpen hopen fun changed hchanged => by
        rcases List.mem_map.mp hchanged with ⟨other, hother, rfl⟩
        exact isWithin_tail_place hconfig hother
      rw [← place_congr hcwd] at hopen'
      rcases reset_or_locateEntry hconfig hlimit' hplain (start_of_confined hstart hspread)
        hopen' with ⟨base, hbase⟩ | hentry
      · rw [hbase] at hreset
        exact absurd (Prod.mk.inj hreset).1 nofun
      · exact hunnamed _ hentry
  | unfit hfound' hreset hvacant hfilled hfits hlong =>
    rw [hfound, Except.ok.injEq] at hfound'
    rcases emptied_of_vacant hconfig hlayout.level hlinks hreset hvacant with ⟨hhere, _⟩
    have hbase := FileSystem.pathLimit_resetFiles reached config.outputDir
    rw [hreset] at hbase
    have hunlimited := hbase.trans hlimit'
    rw [fits_iff hunlimited, Nat.not_le] at hlong
    have hplace := hhere.trans (place_congr hcwd)
    subst hplace
    refine .writing ?_ (hfound' ▸ htests) (fun other hmem => (fits_iff hunlimited).mp
      (hfits other hmem)) hlong (hfilled.stocked.locate hvacant.located) hfilled.holds
    -- A complete configuration would have had room for the same name.
    refine List.eq_nil_iff_forall_not_mem.mpr fun other hmem => ?_
    have hmem' : _ ∈ tests := hfound' ▸ List.mem_append_right _ List.mem_cons_self
    have hfit := hprogress.fits other hmem _ hmem'
    exact absurd ((fits_iff hlimit).mp hfit) (Nat.not_le.mpr hlong)

/-- A file in the place of a directory stops a run in the turn of its configuration,
    if nothing is in the way of those in front of it. -/
theorem exists_generate_of_file (events : List Event) (hlayout : Undisturbed layout files)
    (hlimit : files.pathLimit = none) (hplain : layout.outputDir.IsPlain)
    (hstart : files.tree.get? (layout.outputDir.route.start files.workingDirectory) =
      some .directory)
    (htests : testCases files (sourceDir layout) = .ok tests)
    (hshort : ∀ test ∈ tests, (Utf8.encode test).length + 12 ≤ Name.maxLength)
    (hconfigs : configurations layout = complete ++ config :: left)
    (hopen : ∀ other ∈ complete, files.tree.Open (place other files)) {contents : List UInt8}
    (hfile : files.tree.get? (place config files) = some (.file contents)) :
    ∃ after, (generate layout : Run Summary) ⟨files, events⟩ =
      (.error (.clearing config.outputDir (.system .notDirectory)), after) := by
  have hconfig := Configuration.mem_of_eq_append hconfigs
  have hcomplete : ∀ other ∈ complete, other ∈ configurations layout :=
    fun _ => Configuration.mem_of_mem_front hconfigs
  have hbegin : Progress tests [] files (World.mk files events).files :=
    Progress.start tests files
  have hfits : ∀ other ∈ complete, ∀ test ∈ tests, Fits other files test :=
    fun _ _ test hmem => (fits_iff hlimit).mpr (hshort test hmem)
  -- The configurations in front can be completed.
  have hfront : ∃ summary reached,
      (complete.foldlM generateNext ⟨0, 0⟩ : Run Summary) ⟨files, events⟩ = (.ok summary, reached) :=
    exists_foldlM hlayout htests
      (fun _ other _ _ hin hsplit => reset_behind hlimit hplain hstart hsplit (hopen other hin))
      hfits hconfigs hbegin
  rcases hfront with ⟨summary, reached, hfront⟩
  have hprogress := (progress_of_foldlM hlayout htests hconfigs hbegin hfront).1
  rw [List.nil_append] at hprogress
  -- They have not changed what is in the place of the directory.
  have hnew := (Configuration.notMem_of_eq_append hconfigs).1
  have hstill : reached.files.tree.get? (place config reached.files) = some (.file contents) := by
    rw [place_congr hprogress.confined.workingDirectory]
    exact (get?_of_confined_places hcomplete hconfig hnew hprogress.confined
      (Location.isWithin_refl _)).trans hfile
  have hfound : testCases reached.files config.sourceDir = .ok tests := by
    rw [(Configuration.paths_of_mem hconfig).1]
    exact hlayout.stable tests reached.files htests (hprogress.spread hcomplete)
  have hall := plain_of_mem hconfig hplain
  rcases Configuration.route_of_mem hconfig hlayout.level with ⟨_, ⟨name, hlast⟩, hslash⟩
  have hroute := FileSystem.route_of_isPlain (hprogress.confined.pathLimit.trans hlimit) hall
    (Path.bytes_ne_nil_of_last hlast)
  have hreset := FileSystem.resetFiles_of_file hroute hlast hslash hall.climb_notMem
    hall.overlong_notMem hstill
  have hfailed : (generateConfiguration config : Run Nat) reached =
      (.error (.clearing config.outputDir (.system .notDirectory)),
        ⟨reached.files, reached.events ++ announced config tests⟩) := by
    rw [run_generateConfiguration, hfound]
    simp only [hreset]
  exact ⟨_, (Run.run_foldlM_eq_error_iff _ _ _ _ _ _).mpr ⟨complete, config, left, summary, reached,
    hconfigs, hfront, (run_generateNext_eq_error_iff _ _ _ _ _).mpr hfailed⟩⟩

/-- What a run leaves that fails at one of its configurations, for the reason that
    is given. The directories of the configurations in front of it hold what a whole
    run would leave there. Those behind it have not changed. Elsewhere nothing has
    changed either, but for missing directories that were made around its directory
    and those in front of it. -/
theorem generate_halts (hlayout : Undisturbed layout world.files)
    (hlimit : world.files.pathLimit = none)
    (h : (generate layout : Run Summary) world = (.error failure, after)) :
    ∃ complete config left, configurations layout = complete ++ config :: left ∧
      (∃ summary reached,
        (complete.foldlM generateNext ⟨0, 0⟩ : Run Summary) world = (.ok summary, reached) ∧
        (generateConfiguration config : Run Nat) reached = (.error failure, after)) ∧
      (∀ other ∈ complete, ∃ tests, testCases world.files (sourceDir layout) = .ok tests ∧
        after.files.locate other.outputDir = .ok (place other world.files) ∧
        Holds other tests (place other world.files) after.files) ∧
      (∀ other ∈ left, ∀ inner : Location, inner.isWithin (place other world.files) = true →
        after.files.tree.get? inner = world.files.tree.get? inner) ∧
      FileSystem.Confined ((complete ++ [config]).map fun other => place other world.files)
        world.files after.files ∧
      Halt layout complete config world.files after.files failure := by
  unfold generate at h
  rcases (Run.run_foldlM_eq_error_iff _ _ _ _ _ _).mp h with
    ⟨complete, config, left, summary, reached, hconfigs, hcomplete, hfailed⟩
  have hrun := (run_generateNext_eq_error_iff _ _ _ _ _).mp hfailed
  have hmem : ∀ other ∈ complete ++ [config], other ∈ configurations layout := by
    intro other hin
    rw [hconfigs, List.append_cons]
    exact List.mem_append_left left hin
  have hconfig := Configuration.mem_of_eq_append hconfigs
  have hending := ending_of_run hconfig hlayout.level hrun
  refine ⟨complete, config, left, hconfigs, ⟨summary, reached, hcomplete, hrun⟩, ?_⟩
  cases htests : testCases world.files (sourceDir layout) with
  | error cause =>
    have hnil := complete_eq_nil hconfigs htests hcomplete
    subst hnil
    rcases Prod.mk.inj hcomplete with ⟨_, rfl⟩
    rcases halt_of_unfound hconfig htests hending with ⟨hhalt, hsame⟩
    refine ⟨fun _ hin => absurd hin List.not_mem_nil, fun _ _ _ _ => ?_, ?_, hhalt⟩
    · rw [hsame]
    · rw [hsame]
      exact FileSystem.Confined.refl _ _
  | ok tests =>
    have hfront : ∀ other ∈ complete, other ∈ configurations layout :=
      fun _ => Configuration.mem_of_mem_front hconfigs
    have hnew := (Configuration.notMem_of_eq_append hconfigs).1
    have hprogress := (progress_of_foldlM hlayout htests hconfigs
      (Progress.start tests world.files) hcomplete).1
    rw [List.nil_append] at hprogress
    rcases progress_of_ending hlayout hfront hconfig hnew hprogress hending with
      ⟨hconfined, hholds⟩
    refine ⟨fun other hin => ⟨tests, rfl, (hholds other hin).2, (hholds other hin).1⟩,
      fun other hin inner hinner => ?_, hconfined,
      halt_of_ending hlayout hlimit htests hconfigs hprogress hending⟩
    -- What comes behind is none of those that have been gone through.
    have hother : other ∈ configurations layout :=
      hconfigs ▸ List.mem_append_right _ (List.mem_cons_of_mem config hin)
    have hapart : other ∉ complete ++ [config] := by
      intro hboth
      rw [List.append_cons] at hconfigs
      rcases List.append_of_mem hin with ⟨front, back, rfl⟩
      rw [← List.append_assoc] at hconfigs
      exact (Configuration.notMem_of_eq_append hconfigs).1 (List.mem_append_left front hboth)
    exact get?_of_confined_places hmem hother hapart hconfined hinner

/-- One test case, and a file in the place of the second directory for wrappers. -/
def blockedFiles : FileSystem where
  tree :=
    ([["t"], ["t", "dx"], ["t", "dx", "a"], ["o"], ["o", "dx"]].foldl
      (fun tree names => tree.put (sampleLocation names) .directory) Tree.empty).put
        (sampleLocation ["o", "dx", "d8"]) (.file (Utf8.encode "kept"))
  workingDirectory := []
  pathLimit := none

theorem testCases_blockedFiles : testCases blockedFiles (sourceDir sampleLayout) = .ok ["a"] :=
  testCases_of_perm rfl (by decide) (by decide)

theorem undisturbed_blockedFiles : Undisturbed sampleLayout blockedFiles := by
  have hapart : Apart sampleLayout blockedFiles :=
    ⟨by decide, Tree.Unlinked.of_directory rfl, by decide, by decide, by decide⟩
  have hopen : ∀ config ∈ configurations sampleLayout,
      blockedFiles.tree.Open (place config blockedFiles).tail := by
    decide
  exact hapart.undisturbed (by decide) fun config hconfig => (hopen config hconfig).unlinked

/-- The run is blocked at its second directory. -/
theorem exists_generate_blockedFiles :
    ∃ after, (generate sampleLayout : Run Summary) ⟨blockedFiles, []⟩ =
      (.error (.clearing (.ofString "o/dx/d8") (.system .notDirectory)), after) := by
  have hconfigs : ∃ first second left, configurations sampleLayout = [first] ++ second :: left ∧
      first.outputDir = .ofString "o/dx/r8" ∧ second.outputDir = .ofString "o/dx/d8" :=
    ⟨_, _, _, rfl, by decide, by decide⟩
  rcases hconfigs with ⟨first, second, left, hconfigs, hfirst, hsecond⟩
  have hopen : ∀ other ∈ [first], blockedFiles.tree.Open (place other blockedFiles) := by
    intro other hin
    unfold place
    rw [List.mem_singleton.mp hin, hfirst]
    decide
  have hfile : blockedFiles.tree.get? (place second blockedFiles) =
      some (.file (Utf8.encode "kept")) := by
    unfold place
    rw [hsecond]
    rfl
  have hrun := exists_generate_of_file [] undisturbed_blockedFiles rfl (by decide) rfl
    testCases_blockedFiles (by decide) hconfigs hopen hfile
  rw [hsecond] at hrun
  exact hrun

/-- The file that blocks a run is still there, and the directory in front of it holds
    what a whole run would leave there. -/
theorem generate_halts_blocked :
    ∃ failure after, (generate sampleLayout : Run Summary) ⟨blockedFiles, []⟩ =
        (.error failure, after) ∧
      after.files.tree.get? (sampleLocation ["o", "dx", "d8"]) =
        some (.file (Utf8.encode "kept")) ∧
      ∃ config ∈ configurations sampleLayout, config.outputDir = .ofString "o/dx/r8" ∧
        Holds config ["a"] (place config blockedFiles) after.files := by
  rcases exists_generate_blockedFiles with ⟨after, hrun⟩
  rcases generate_halts undisturbed_blockedFiles rfl hrun with
    ⟨complete, config, left, hconfigs, _, hcomplete, _, hconfined, hhalt⟩
  -- Whatever the reason is, the place of the directory has not changed.
  have hplace : config.outputDir = .ofString "o/dx/d8" ∧
      after.files.tree.get? (place config blockedFiles) =
        blockedFiles.tree.get? (place config blockedFiles) := by
    generalize hfailure : Failure.clearing (.ofString "o/dx/d8") (.system .notDirectory) = failure
      at hhalt
    cases hhalt with
    | listing => cases hfailure
    | undecodableName => cases hfailure
    | file hfile hkept => exact ⟨(Failure.clearing.inj hfailure).1.symm, hkept.trans hfile.symm⟩
    | link hlink hkept => exact ⟨(Failure.clearing.inj hfailure).1.symm, hkept.trans hlink.symm⟩
    | unreachable _ hkept =>
      exact ⟨(Failure.clearing.inj hfailure).1.symm, hkept _ (Location.isWithin_refl _)⟩
    | writing => cases hfailure
  rcases hplace with ⟨houtput, hkept⟩
  refine ⟨_, after, hrun, ?_, ?_⟩
  · unfold place at hkept
    rw [houtput] at hkept
    exact hkept
  · have hfirst : ∃ first more, configurations sampleLayout = first :: more ∧
        first.outputDir = .ofString "o/dx/r8" := ⟨_, _, rfl, by decide⟩
    rcases hfirst with ⟨first, more, hall, hfirst⟩
    rw [hall] at hconfigs
    cases complete with
    | nil =>
      rw [List.nil_append, List.cons.injEq] at hconfigs
      rw [← hconfigs.1, hfirst] at houtput
      exact absurd houtput (by decide)
    | cons other complete =>
      rw [List.cons_append, List.cons.injEq] at hconfigs
      rcases hcomplete other List.mem_cons_self with ⟨tests, htests, _, hholds⟩
      rw [testCases_blockedFiles, Except.ok.injEq] at htests
      rw [← htests, ← hconfigs.1] at hholds
      exact ⟨first, hall ▸ List.mem_cons_self, hfirst, hholds⟩

end Generation

end TestWrappers
