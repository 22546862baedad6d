import TestWrappers.CommandLine
import TestWrappers.Proofs.FileSystem.Seating
import TestWrappers.Proofs.Generation.Heading
import TestWrappers.Proofs.Generation.Obstacles
import TestWrappers.Proofs.Path.Sameness

/-!
# A Root Instead of a Directory

A run that is given a root does what a run does that starts in the directory of the root.

The layouts of the two runs differ in what their paths begin with, so the paths are tied,
and tied paths do the same as long as the root is seated. Two runs are kept side by side:
behind every part of the work they have come to the same result, up to tied paths in a
failure, and to the same entries, and the root is still there. Parts that are put together
keep this up, and so does a loop.

Only removing the directory of the root itself, or one around it, would take the ground
from under the second run. Where an output path leads may change on the way: making a
directory can give a link something to lead to, and a link that is taken away may have been
on the way of another path. So it is asked for each configuration when its turn comes, and
the answer is known from the start if no link on the way of an output path is taken away.

## Main definitions

* `Failure.Agrees`: Failures that are the same but for their paths.
* `Generation.Matches`: Results that are the same but for such failures.
* `Generation.Alike`: Two runs side by side.
* `Generation.OutputsApart`: No output path leads to a location or around it.

## Theorems

* `Generation.Alike.bind`: One part after another.
* `Generation.alike_generateConfiguration`: One configuration.
* `Generation.alike_foldlM`: One configuration after another.
* `Generation.outputsApart_of_waysKept`: When no output path gets in the way.
* `Generation.generate_rooted`: A root is as good as changing the directory.
* `Generation.generate_rooted_relinked`: Not so if a link on the way is taken away.
-/

namespace TestWrappers

/-- The failures are the same but for their paths, and these are related. -/
inductive Failure.Agrees (same : Path → Path → Prop) : Failure → Failure → Prop where
  | listing {a b : Path} (h : same a b) (cause : FileError) :
    Agrees same (.listing a cause) (.listing b cause)
  | undecodableName {a b : Path} (h : same a b) :
    Agrees same (.undecodableName a) (.undecodableName b)
  | clearing {a b : Path} (h : same a b) (cause : FileError) :
    Agrees same (.clearing a cause) (.clearing b cause)
  | writing {a b : Path} (h : same a b) (cause : FileError) :
    Agrees same (.writing a cause) (.writing b cause)
  | filling (fault : Template.Fault) : Agrees same (.filling fault) (.filling fault)

theorem Failure.Agrees.mono {same other : Path → Path → Prop} {a b : Failure}
    (h : a.Agrees same b) (hsub : ∀ a b, same a b → other a b) : a.Agrees other b := by
  cases h with
  | listing h cause => exact .listing (hsub _ _ h) cause
  | undecodableName h => exact .undecodableName (hsub _ _ h)
  | clearing h cause => exact .clearing (hsub _ _ h) cause
  | writing h cause => exact .writing (hsub _ _ h) cause
  | filling fault => exact .filling fault

/-- The configurations are about the same, and their directories are tied. -/
structure Configuration.Tied (root : Path) (a b : Configuration) : Prop where
  /-- The tool is the same. -/
  tool : a.tool = b.tool
  /-- So is its constant. -/
  toolConstant : a.toolConstant = b.toolConstant
  /-- So is the toolchain. -/
  toolchain : a.toolchain = b.toolchain
  /-- The test cases come from tied directories. -/
  source : root.Tied a.sourceDir b.sourceDir
  /-- The wrappers go to directories of one name in tied ones. -/
  output : ∃ outerA outerB, ∃ name : Name, root.Tied outerA outerB ∧
    a.outputDir = outerA.join ⟨name.bytes⟩ ∧ b.outputDir = outerB.join ⟨name.bytes⟩

theorem Configuration.Tied.outputDir {root : Path} {a b : Configuration} (h : Tied root a b) :
    root.Tied a.outputDir b.outputDir := by
  rcases h.output with ⟨outerA, outerB, name, houter, ha, hb⟩
  rw [ha, hb]
  exact houter.join _

/-- A pair has a configuration for both layouts or for none, and then the two are tied. -/
theorem Configuration.rel_of (root testPlace outputPlace : Path) {toolchain : Toolchain}
    (h : toolchain ∈ Toolchain.all) (tool : Tool) :
    Option.Rel (Tied root)
      (of? ⟨root.join testPlace, root.join outputPlace⟩ toolchain tool)
      (of? ⟨(Path.ofString ".").join testPlace, (Path.ofString ".").join outputPlace⟩
        toolchain tool) := by
  -- The directories of fixtures and toolchains are taken from somewhere, and not empty.
  have hnames : ∀ toolchain ∈ Toolchain.all, ∀ text ∈ [toolchain.fixture, toolchain.name],
      (Path.ofString text).isAbsolute = false ∧ (Path.ofString text).bytes ≠ [] := by decide
  rcases hnames toolchain h toolchain.fixture (by simp only [List.mem_cons, true_or]) with
    ⟨hfixture, hfixture'⟩
  rcases hnames toolchain h toolchain.name (by simp only [List.mem_cons, true_or, or_true]) with
    ⟨hname, hname'⟩
  rcases tool.exists_name with ⟨name, hbytes⟩
  unfold of?
  cases tool.constant? toolchain with
  | none => exact .none
  | some constant =>
    refine .some ⟨rfl, rfl, rfl, Path.tied_join_join root testPlace hfixture hfixture',
      _, _, name, Path.tied_join_join root outputPlace hname hname', ?_, ?_⟩
    all_goals
      rw [hbytes]
      rfl

/-- Both directories of a layout are taken from the root. -/
theorem Options.layout_eq (options : Options) : options.layout =
    ⟨options.root.join ((options.directory? .testDir).getD Layout.standard.testDir),
      options.root.join ((options.directory? .outputDir).getD Layout.standard.outputDir)⟩ := by
  unfold layout
  cases options.directory? .testDir <;> cases options.directory? .outputDir <;> rfl

namespace Generation

variable {α β : Type} {root : Path} {home : Location} {world world' : World}
  {config config' : Configuration}

/-- The results are the same but for the paths of a failure, and these are related. -/
inductive Matches (same : Path → Path → Prop) : Except Failure α → Except Failure α → Prop where
  | ok (a : α) : Matches same (.ok a) (.ok a)
  | error {a b : Failure} (h : a.Agrees same b) : Matches same (.error a) (.error b)

theorem Matches.mono {same other : Path → Path → Prop} {a b : Except Failure α}
    (h : Matches same a b) (hsub : ∀ a b, same a b → other a b) : Matches other a b := by
  cases h with
  | ok a => exact .ok a
  | error h => exact .error (h.mono hsub)

/-- Two worlds with the same entries, one of them seen from a root that is seated. -/
structure Paired (root : Path) (home : Location) (world world' : World) : Prop where
  /-- The root stands where it is. -/
  seated : FileSystem.Seated root home world.files
  /-- The entries are the same. -/
  files : world'.files = world.files.inside home

/-- Two runs side by side, the second one seen from the root. -/
structure Alike (root : Path) (home : Location) (here there : Except Failure α × World) :
    Prop where
  /-- The results are the same up to tied paths. -/
  result : Matches root.Tied here.1 there.1
  /-- The entries are the same. -/
  paired : Paired root home here.2 there.2

/-- Parts that are done one after the other stay side by side. -/
theorem Alike.bind {first first' : Run α} {next next' : α → Run β}
    (h : Alike root home (first world) (first' world'))
    (hnext : ∀ a reached reached', first world = (.ok a, reached) →
      Paired root home reached reached' → Alike root home (next a reached) (next' a reached')) :
    Alike root home ((first >>= next) world) ((first' >>= next') world') := by
  rw [Run.run_bind, Run.run_bind]
  rcases hfirst : first world with ⟨result, reached⟩
  rcases hfirst' : first' world' with ⟨result', reached'⟩
  rw [hfirst, hfirst'] at h
  rcases h with ⟨hresult, hpaired⟩
  cases hresult with
  | ok a => exact hnext a reached reached' hfirst hpaired
  | error hfailure => exact ⟨.error hfailure, hpaired⟩

/-- The same test cases are found in tied directories. -/
theorem matches_testCases {files : FileSystem} {a b : Path}
    (h : FileSystem.Seated root home files) (htied : root.Tied a b) :
    Matches root.Tied (testCases files a) (testCases (files.inside home) b) := by
  unfold testCases
  rw [h.list htied]
  cases files.list a with
  | error cause => exact .error (.listing htied cause)
  | ok names =>
    have hfilter : ((names.map Name.bytes).filter fun name =>
        (files.inside home).isDirectory (b.join ⟨name⟩)) =
          (names.map Name.bytes).filter fun name => files.isDirectory (a.join ⟨name⟩) :=
      List.filter_congr fun name _ => h.isDirectory (htied.join ⟨name⟩)
    dsimp only
    rw [hfilter]
    cases readNames ((names.map Name.bytes).filter fun name =>
        files.isDirectory (a.join ⟨name⟩)) with
    | error name => exact .error (.undecodableName (htied.join ⟨name⟩))
    | ok tests => exact .ok tests

/-- The same wrapper is written to tied files. -/
theorem alike_writeWrapper (h : Paired root home world world')
    (hconfig : Configuration.Tied root config config') (test : String) :
    Alike root home ((writeWrapper config test : Run Unit) world)
      ((writeWrapper config' test : Run Unit) world') := by
  have hfile : root.Tied (wrapperFile config test) (wrapperFile config' test) :=
    hconfig.outputDir.join _
  rw [run_writeWrapper, run_writeWrapper,
    ← Wrapper.render_congr _ hconfig.toolchain hconfig.tool hconfig.toolConstant]
  cases Wrapper.render ⟨test⟩ config with
  | error fault => exact ⟨.error (.filling fault), h⟩
  | ok text =>
    dsimp only
    rw [h.files, h.seated.write hfile]
    cases hwrite : world.files.write (wrapperFile config test) (Utf8.encode text) with
    | error error => exact ⟨.error (.writing hfile error), h⟩
    | ok written => exact ⟨.ok (), h.seated.of_write hwrite, rfl⟩

theorem alike_forM (h : Paired root home world world')
    (hconfig : Configuration.Tied root config config') (tests : List String) :
    Alike root home ((tests.forM (writeWrapper config) : Run Unit) world)
      ((tests.forM (writeWrapper config') : Run Unit) world') := by
  induction tests generalizing world world' with
  | nil => exact ⟨.ok (), h⟩
  | cons test tests ih =>
    rw [Run.run_forM_cons, Run.run_forM_cons]
    exact (alike_writeWrapper h hconfig test).bind fun _ _ _ _ hreached => ih hreached

/-- The same is done for configurations with tied directories. -/
theorem alike_generateConfiguration (h : Paired root home world world')
    (hconfig : Configuration.Tied root config config')
    (haway : ¬ world.files.TakenBy config.outputDir home) :
    Alike root home ((generateConfiguration config : Run Nat) world)
      ((generateConfiguration config' : Run Nat) world') := by
  have htests := matches_testCases h.seated hconfig.source
  -- Looking for test cases changes nothing, so the reset finds the root where it was.
  rcases hconfig.output with ⟨outerA, outerB, name, houter, ha, hb⟩
  rw [ha] at haway
  rcases h.seated.resetFiles houter name haway with ⟨hreset, hseated⟩
  rw [← ha] at hseated
  rw [← ha, ← hb] at hreset
  rw [run_generateConfiguration, run_generateConfiguration, h.files]
  revert htests
  generalize testCases world.files config.sourceDir = found
  generalize testCases (world.files.inside home) config'.sourceDir = found'
  intro htests
  cases htests with
  | error hfailure => exact ⟨.error hfailure, h⟩
  | ok tests =>
    dsimp only
    rw [hreset]
    revert hseated
    rcases resetFiles world.files config.outputDir with ⟨error | ⟨⟩, cleared⟩
    · intro hseated
      exact ⟨.error (.clearing hconfig.outputDir error), hseated, rfl⟩
    · intro hseated
      have hcleared : Paired root home ⟨cleared, world.events ++ announced config tests⟩
          ⟨cleared.inside home, world'.events ++ announced config' tests⟩ := ⟨hseated, rfl⟩
      refine (alike_forM hcleared hconfig tests).bind fun _ reached reached' _ hreached => ?_
      exact ⟨.ok tests.length, hreached⟩

/-- When the turn of a configuration comes, its output path does not lead to the location
    or to anything around it. -/
def OutputsApart (all : List Configuration) (start : Summary) (world : World)
    (home : Location) : Prop :=
  ∀ earlier config later, all = earlier ++ config :: later → ∀ summary reached,
    (earlier.foldlM generateNext start : Run Summary) world = (.ok summary, reached) →
    ∀ entry, reached.files.locateEntry config.outputDir = .ok entry → home.isWithin entry = false

/-- The configurations of two runs are done side by side. -/
theorem alike_foldlM {all all' : List Configuration}
    (hconfigs : List.Forall₂ (Configuration.Tied root) all all') {start : Summary}
    (h : Paired root home world world') (hapart : OutputsApart all start world home) :
    Alike root home ((all.foldlM generateNext start : Run Summary) world)
      ((all'.foldlM generateNext start : Run Summary) world') := by
  induction hconfigs generalizing start world world' with
  | nil => exact ⟨.ok start, h⟩
  | @cons config config' all all' hconfig hconfigs ih =>
    have haway : ¬ world.files.TakenBy config.outputDir home := by
      rintro ⟨_, entry, hentry, hin⟩
      have hout := hapart [] config all rfl start world rfl entry hentry
      exact absurd (hin.symm.trans hout) nofun
    have hnext : Alike root home ((generateNext start config : Run Summary) world)
        ((generateNext start config' : Run Summary) world') := by
      unfold generateNext
      exact (alike_generateConfiguration h hconfig haway).bind fun count _ _ _ hreached =>
        ⟨.ok (Summary.mk (start.configurations + 1) (start.filesWritten + count)), hreached⟩
    rw [List.foldlM_cons, List.foldlM_cons]
    -- What later output paths lead to is asked of the run that starts behind this one.
    refine hnext.bind fun next reached reached' hfirst hreached => ih hreached ?_
    intro earlier other later hsplit summary further hearlier
    refine hapart (config :: earlier) other later (by rw [hsplit]; rfl) summary further ?_
    exact (Run.run_foldlM_cons_eq_ok_iff _ _ _ _ _ _ _).mpr ⟨next, reached, hfirst, hearlier⟩

/-- The configurations with a root and those with a single dot are tied one by one. -/
theorem forall₂_configurations (options : Options) :
    List.Forall₂ (Configuration.Tied options.root) (configurations options.layout)
      (configurations (options.setDirectory .root (.ofString ".")).layout) := by
  have hroot : (options.setDirectory .root (.ofString ".")).root = .ofString "." := rfl
  have htest : (options.setDirectory .root (.ofString ".")).directory? .testDir =
      options.directory? .testDir := rfl
  have houtput : (options.setDirectory .root (.ofString ".")).directory? .outputDir =
      options.directory? .outputDir := rfl
  rw [Options.layout_eq, Options.layout_eq, hroot, htest, houtput]
  unfold configurations
  refine List.rel_flatMap (R := fun a b => a = b ∧ a ∈ Toolchain.all)
    (List.forall₂_same.mpr fun _ hmem => ⟨rfl, hmem⟩) ?_
  rintro toolchain _ ⟨rfl, htoolchain⟩
  refine List.rel_filterMap (R := Eq) ?_ (List.forall₂_refl Tool.all)
  rintro tool _ rfl
  exact Configuration.rel_of _ _ _ htoolchain tool

/-- The output directory does not climb if neither the root does nor the directory that is
    taken from it. -/
theorem up_notMem_outputDir {options : Options}
    (hroot : Path.Component.up ∉ options.root.components)
    (hlevel : ∀ path, options.directory? .outputDir = some path →
      Path.Component.up ∉ path.components) :
    Path.Component.up ∉ options.layout.outputDir.components := by
  rw [Options.layout_eq]
  refine Path.up_notMem_components_join hroot ?_
  cases hpath : options.directory? .outputDir with
  | none => decide
  | some path => exact hlevel path hpath

/-- No output path ever leads to a location or around it if none of them is for such an entry
    and no configuration takes a link from the way of a later one. -/
theorem outputsApart_of_waysKept {layout : Layout}
    (hup : Path.Component.up ∉ layout.outputDir.components)
    (hways : WaysKept world.files (configurations layout))
    (hout : ∀ config ∈ configurations layout, ∀ entry ∈ world.files.heading? config.outputDir,
      home.isWithin entry = false) :
    OutputsApart (configurations layout) ⟨0, 0⟩ world home := by
  intro earlier config later hconfigs summary reached hrun entry hentry
  have hconfig := Configuration.mem_of_eq_append hconfigs
  rcases Configuration.route_of_mem hconfig hup with ⟨_, ⟨name, hlast⟩, hslash⟩
  -- The path leads to the entry that it is for, and that is still the one from the start.
  have hheading := FileSystem.heading?_of_locateEntry hlast hslash hentry
  rw [heading?_of_foldlM hup hconfigs hways hrun] at hheading
  exact hout config hconfig entry hheading

/-- A run that is given a root does what a run does that starts in the directory of the
    root and is given a single dot: it leaves the same entries, and it succeeds with the
    same summary or fails in the same way, with paths that name one place. Neither the root
    nor the output directory climbs, and no link is on the way of the root. No output path
    is for the directory of the root or for one around it, and no configuration takes a
    link from the way of a later one. -/
theorem generate_rooted {options : Options} {there : FileSystem} (events : List Event)
    (hthere : world.files.seenFrom options.root = .ok there)
    (hup : Path.Component.up ∉ options.root.components)
    (hlinks : world.files.tree.Unlinked (options.root.landing world.files.workingDirectory))
    (hlimit : world.files.pathLimit = none)
    (hlevel : ∀ path, options.directory? .outputDir = some path →
      Path.Component.up ∉ path.components)
    (hout : ∀ config ∈ configurations options.layout,
      ∀ entry ∈ world.files.heading? config.outputDir,
        there.workingDirectory.isWithin entry = false)
    (hways : WaysKept world.files (configurations options.layout)) :
    ∃ result result' after after',
      (generate options.layout : Run Summary) world = (result, after) ∧
      (generate (options.setDirectory .root (.ofString ".")).layout : Run Summary)
        ⟨there, events⟩ = (result', after') ∧
      after'.files = { after.files with workingDirectory := there.workingDirectory } ∧
      Matches (FileSystem.SamePlace after.files after'.files) result result' := by
  rcases FileSystem.seated_of_seenFrom hthere hup hlinks hlimit with ⟨hseated, hfiles⟩
  have hstart : Paired options.root there.workingDirectory world ⟨there, events⟩ :=
    ⟨hseated, hfiles⟩
  have hapart := outputsApart_of_waysKept (up_notMem_outputDir hup hlevel) hways hout
  have halike := alike_foldlM (forall₂_configurations options) hstart hapart
  refine ⟨_, _, _, _, rfl, rfl, halike.paired.files, ?_⟩
  refine halike.result.mono fun a b htied => ?_
  have hplace := halike.paired.seated.samePlace htied
  rw [← halike.paired.files] at hplace
  exact hplace

/-- Two test cases in a directory that is not the one the run starts in. -/
def rootedFiles : FileSystem where
  tree :=
    [["c"], ["c", "r"], ["c", "r", "t"], ["c", "r", "t", "dx"], ["c", "r", "t", "dx", "a_b"],
      ["c", "r", "t", "dx", "a-b"]].foldl
        (fun tree names => tree.put (sampleLocation names) .directory) Tree.empty
  workingDirectory := sampleLocation ["c"]
  pathLimit := none

/-- The directory of the test cases by way of a root. -/
def rootedOptions : Options :=
  ((Options.empty.setDirectory .root (.ofString "./r/")).setDirectory .testDir
    (.ofString "t")).setDirectory .outputDir (.ofString "o")

theorem testCases_rootedFiles :
    testCases rootedFiles (sourceDir rootedOptions.layout) = .ok ["a-b", "a_b"] :=
  testCases_of_perm rfl (by decide) (by decide)

theorem ready_rootedFiles : Ready rootedOptions.layout ["a-b", "a_b"] rootedFiles :=
  ⟨rfl, by decide, by decide, by decide, by decide⟩

theorem undisturbed_rootedFiles : Undisturbed rootedOptions.layout rootedFiles :=
  ready_rootedFiles.undisturbed
    ⟨by decide, Tree.Unlinked.of_directory rfl, by decide, by decide, by decide⟩

/-- The wrappers of the sample are written by way of the root as they are written from
    its directory, with the text of the greater test case in the file that both share. -/
theorem generate_rooted_sample :
    ∃ there after after', rootedFiles.seenFrom rootedOptions.root = .ok there ∧
      (generate rootedOptions.layout : Run Summary) ⟨rootedFiles, []⟩ = (.ok ⟨5, 10⟩, after) ∧
      (generate (rootedOptions.setDirectory .root (.ofString ".")).layout : Run Summary)
        ⟨there, []⟩ = (.ok ⟨5, 10⟩, after') ∧
      after'.files = { after.files with workingDirectory := sampleLocation ["c", "r"] } ∧
      ∀ config ∈ configurations rootedOptions.layout, ∃ text,
        Wrapper.render ⟨"a_b"⟩ config = .ok text ∧
        ∀ files ∈ [after.files, after'.files], files.tree.get?
            (⟨Utf8.encode "Arta_bTest.java", by decide⟩ :: place config rootedFiles) =
          some (.file (Utf8.encode text)) := by
  have hstart : Undisturbed rootedOptions.layout (World.mk rootedFiles []).files :=
    undisturbed_rootedFiles
  rcases exists_generate [] hstart ready_rootedFiles testCases_rootedFiles with
    ⟨summary, after, hrun⟩
  rcases holds_of_generate hstart hrun with ⟨tests, htests, hsummary, hprogress⟩
  have heq : tests = ["a-b", "a_b"] := Except.ok.inj (htests.symm.trans testCases_rootedFiles)
  subst heq
  rw [hsummary] at hrun
  have hthere : (World.mk rootedFiles []).files.seenFrom rootedOptions.root =
      .ok (rootedFiles.inside (sampleLocation ["c", "r"])) := rfl
  have hlevel : ∀ path, rootedOptions.directory? .outputDir = some path →
      Path.Component.up ∉ path.components := by
    rintro path ⟨⟩
    decide
  rcases generate_rooted [] hthere (by decide) (Tree.Unlinked.of_directory rfl) rfl
      hlevel (by decide) (by decide) with
    ⟨result, result', reached, after', hfirst, hsecond, hfiles, hmatches⟩
  rcases Prod.mk.inj (hfirst.symm.trans hrun) with ⟨rfl, rfl⟩
  cases hmatches
  -- What the first run leaves is in the second world, too, since the entries are the same.
  refine ⟨_, reached, after', hthere, hrun, hsecond, hfiles, fun config hconfig => ?_⟩
  rcases Wrapper.exists_render_eq_ok ⟨"a_b"⟩ config with ⟨text, htext⟩
  have hfirst := ((hprogress.holds config hconfig).entries
    ⟨Utf8.encode "Arta_bTest.java", by decide⟩ (.file (Utf8.encode text))).mpr
      ⟨"a_b", text, by decide, htext, rfl⟩
  refine ⟨text, htext, fun files hmem => ?_⟩
  rcases List.mem_cons.mp hmem with rfl | hsecond
  · exact hfirst
  · rw [List.mem_singleton.mp hsecond, hfiles]
    exact hfirst

/-- No test cases, but a link in place of the first directory for wrappers. The last ones are
    reached through another link, which leads on by way of that one. -/
def relinkedFiles : FileSystem where
  tree :=
    (([["r8cf"], ["r8cf", "s"], ["r8cf", "s", "t"], ["r8cf", "s", "t", "dx"], ["r8cf", "s", "o"],
      ["r8cf", "s", "o", "dx"], ["q"], ["q", "r8cf"], ["q", "1"], ["q", "1", "2"],
      ["q", "1", "2", "3"], ["q", "1", "2", "3", "4"], ["q", "1", "2", "3", "4", "5"]].foldl
        (fun tree names => tree.put (sampleLocation names) .directory) Tree.empty).put
          (sampleLocation ["r8cf", "s", "o", "dx", "r8"])
            (.link (.ofString "../../../../q/1/2/3/4/5"))).put
              (sampleLocation ["r8cf", "s", "o", "none"])
                (.link (.ofString "dx/r8/../../../../.."))
  workingDirectory := []
  pathLimit := none

/-- The directories of these by way of a root. -/
def relinkedOptions : Options :=
  ((Options.empty.setDirectory .root (.ofString "r8cf/s")).setDirectory .testDir
    (.ofString "t")).setDirectory .outputDir (.ofString "o")

/-- That no output path is for the directory of the root or for one around it is not enough.
    Here a link on the way of the last configuration gives way to a directory, so that this
    configuration removes the root. A run that started in it cannot go on from there. -/
theorem generate_rooted_relinked :
    ∃ there after after', relinkedFiles.seenFrom relinkedOptions.root = .ok there ∧
      Path.Component.up ∉ relinkedOptions.root.components ∧
      relinkedFiles.tree.Unlinked
        (relinkedOptions.root.landing relinkedFiles.workingDirectory) ∧
      relinkedFiles.pathLimit = none ∧
      (∀ option ∈ [DirectoryOption.testDir, DirectoryOption.outputDir], ∀ path,
        relinkedOptions.directory? option = some path → Path.Component.up ∉ path.components) ∧
      (∀ config ∈ configurations relinkedOptions.layout,
        ∀ entry ∈ relinkedFiles.heading? config.outputDir,
          there.workingDirectory.isWithin entry = false) ∧
      (generate relinkedOptions.layout : Run Summary) ⟨relinkedFiles, []⟩ =
        (.ok ⟨5, 0⟩, after) ∧
      (generate (relinkedOptions.setDirectory .root (.ofString ".")).layout : Run Summary)
        ⟨there, []⟩ =
          (.error (.clearing (.ofString "./o/none/r8cf") (.system .noEntry)), after') ∧
      after.files.tree.get? (sampleLocation ["r8cf", "s"]) = some .directory ∧
      after'.files.tree.get? (sampleLocation ["r8cf", "s"]) = none := by
  have hthere : relinkedFiles.seenFrom relinkedOptions.root =
      .ok (relinkedFiles.inside (sampleLocation ["r8cf", "s"])) := rfl
  have hlevel : ∀ option ∈ [DirectoryOption.testDir, DirectoryOption.outputDir], ∀ path,
      relinkedOptions.directory? option = some path → Path.Component.up ∉ path.components := by
    intro option hoption path hpath
    rcases List.mem_cons.mp hoption with rfl | hlast
    · cases hpath
      decide
    · rw [List.mem_singleton.mp hlast] at hpath
      cases hpath
      decide
  have hfirst : ((generate relinkedOptions.layout : Run Summary) ⟨relinkedFiles, []⟩).1 =
      .ok ⟨5, 0⟩ := by
    decide +kernel
  have hsecond : ((generate (relinkedOptions.setDirectory .root (.ofString ".")).layout :
      Run Summary) ⟨relinkedFiles.inside (sampleLocation ["r8cf", "s"]), []⟩).1 =
        .error (.clearing (.ofString "./o/none/r8cf") (.system .noEntry)) := by
    decide +kernel
  -- The first run makes the root again on the way to the last directory.
  exact ⟨_, _, _, hthere, by decide, Tree.Unlinked.of_directory rfl, rfl, hlevel, by decide,
    Prod.ext hfirst rfl, Prod.ext hsecond rfl, by decide +kernel, by decide +kernel⟩

-- A link that stays is no matter, whatever it leads to.
example : ¬ WaysKept relinkedFiles (configurations relinkedOptions.layout) ∧
    WaysKept { rootedFiles with
      tree := rootedFiles.tree.put (sampleLocation ["c", "r", "o"]) (.link (.ofString "../x")) }
      (configurations rootedOptions.layout) := by decide

end Generation

end TestWrappers
