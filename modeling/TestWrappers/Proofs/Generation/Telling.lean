import Mathlib.Algebra.GroupWithZero.Nat
import TestWrappers.Program
import TestWrappers.Proofs.Generation.Discovery
import TestWrappers.Proofs.Generation.Running
import TestWrappers.Proofs.Wrapper.Rendering

/-!
# What a Run Tells

The events of a run, as a record of what has happened in it.

A configuration can end in four ways, and each leaves its own events. If no test cases
are found there is nothing to tell. What is found is announced before the directory is
reset, so a reset that fails leaves the announcement and no more. Then each wrapper is
told of behind its writing, so the wrappers that were told of are those that were
written, up to the first one that could not be.

A run goes through the configurations until one fails. What it tells is what they tell,
one behind the other. The end is told of only if all of them are complete, and then
three counts agree: the wrappers that were told of, the test cases that were announced,
and the files in the last event.

How much of this a reader sees depends on the verbosity, and only the wrappers do.

## Main definitions

* `Generation.Written`: Wrappers written one after the other.
* `Generation.Told`: What one configuration tells, and how it ends.
* `Generation.Course`: What the configurations tell that are begun one after the other.
* `Program.logged`: The events that are shown.

## Theorems

* `Generation.told_of_generateConfiguration`: What one configuration tells.
* `Generation.course_of_foldlM`: What configurations tell one after the other.
* `Generation.Course.count`: The counts agree.
* `Program.run_tells`: What a run tells.
-/

namespace TestWrappers

namespace Event

/-- The number of test cases that an event announces. -/
def announcedTestCases : Event → Nat
  | generating _ _ testCases => testCases
  | noTestCases _ | wrote _ | done _ _ => 0

/-- The number of details among events. -/
def countDebug (events : List Event) : Nat := events.countP fun event => event.level == .debug

/-- The number of all test cases that events announce. -/
def sumTestCases (events : List Event) : Nat := (events.map announcedTestCases).sum

/-- The event that tells of the end of a run. -/
def isDone : Event → Bool
  | done _ _ => true
  | generating _ _ _ | noTestCases _ | wrote _ => false

theorem countDebug_append (a b : List Event) :
    countDebug (a ++ b) = countDebug a + countDebug b := List.countP_append

theorem sumTestCases_append (a b : List Event) :
    sumTestCases (a ++ b) = sumTestCases a + sumTestCases b := by
  simp only [sumTestCases, List.map_append, List.sum_append]

end Event

namespace Generation

/-- The wrappers of test cases are written one after the other, from the files in front
    of the first one to those behind the last one. -/
inductive Written (config : Configuration) : FileSystem → List String → FileSystem → Prop
  /-- Nothing has to be written. -/
  | nil (files : FileSystem) : Written config files [] files
  /-- A wrapper is written, and the others behind it. -/
  | cons {files reached left : FileSystem} {name text : String} {names : List String} :
    Wrapper.render ⟨name⟩ config = .ok text →
    files.write (wrapperFile config name) (Utf8.encode text) = .ok reached →
    Written config reached names left → Written config files (name :: names) left

/-- The wrapper of a test case cannot be written. -/
def Unwritable (config : Configuration) (files : FileSystem) (name : String)
    (failure : Failure) : Prop :=
  ∃ text cause, Wrapper.render ⟨name⟩ config = .ok text ∧
    files.write (wrapperFile config name) (Utf8.encode text) = .error cause ∧
    failure = .writing (wrapperFile config name) cause

/-- The events told of wrappers. -/
def wrote (config : Configuration) (names : List String) : List Event :=
  names.map fun name => .wrote (wrapperFile config name)

/-- What a configuration tells from the files in front of it, how it ends, and the files
    that it leaves. -/
inductive Told (config : Configuration) (files : FileSystem) :
    List Event → Except Failure Nat → FileSystem → Prop
  /-- No test cases are found. -/
  | unfound {failure : Failure} : testCases files config.sourceDir = .error failure →
    Told config files [] (.error failure) files
  /-- The directory cannot be reset. -/
  | uncleared {names : List String} {cause : FileError} {left : FileSystem} :
    testCases files config.sourceDir = .ok names →
    resetFiles files config.outputDir = (.error cause, left) →
    Told config files (announced config names) (.error (.clearing config.outputDir cause)) left
  /-- A wrapper cannot be written. -/
  | unwritten {earlier later : List String} {name : String} {cleared left : FileSystem}
    {failure : Failure} :
    testCases files config.sourceDir = .ok (earlier ++ name :: later) →
    resetFiles files config.outputDir = (.ok (), cleared) →
    Written config cleared earlier left → Unwritable config left name failure →
    Told config files (announced config (earlier ++ name :: later) ++ wrote config earlier)
      (.error failure) left
  /-- All wrappers are written. -/
  | complete {names : List String} {cleared left : FileSystem} :
    testCases files config.sourceDir = .ok names →
    resetFiles files config.outputDir = (.ok (), cleared) →
    Written config cleared names left →
    Told config files (announced config names ++ wrote config names) (.ok names.length) left

/-- What is told by the configurations that are begun, one after the other and up to the
    first one that fails, with the summary of those that are complete. -/
inductive Course : List Configuration → FileSystem → List (List Event) →
    Except Failure Summary → FileSystem → Prop
  /-- All are complete. -/
  | nil (files : FileSystem) : Course [] files [] (.ok ⟨0, 0⟩) files
  /-- One fails, and the others are not begun. -/
  | stop {config : Configuration} {later : List Configuration} {files left : FileSystem}
    {told : List Event} {failure : Failure} :
    Told config files told (.error failure) left →
    Course (config :: later) files [told] (.error failure) left
  /-- One is complete, and the others go on behind it. -/
  | next {config : Configuration} {later : List Configuration}
    {files reached left : FileSystem} {told : List Event} {others : List (List Event)}
    {count : Nat} {result : Except Failure Summary} :
    Told config files told (.ok count) reached → Course later reached others result left →
    Course (config :: later) files (told :: others)
      (result.map fun summary => ⟨summary.configurations + 1, summary.filesWritten + count⟩) left

variable {config : Configuration} {all : List Configuration} {names : List String}
  {files left : FileSystem} {told : List Event} {traces : List (List Event)}
  {world after : World}

/-- Wrappers are written and told of up to the first one that cannot be written. -/
theorem written_of_forM {result : Except Failure Unit}
    (h : (names.forM (writeWrapper config) : Run Unit) world = (result, after)) :
    (result = .ok () ∧ Written config world.files names after.files ∧
      after.events = world.events ++ wrote config names) ∨
    ∃ earlier name later failure, names = earlier ++ name :: later ∧ result = .error failure ∧
      Written config world.files earlier after.files ∧
      Unwritable config after.files name failure ∧
      after.events = world.events ++ wrote config earlier := by
  induction names generalizing world with
  | nil =>
    rcases Prod.mk.inj ((Run.run_forM_nil _ _).symm.trans h) with ⟨rfl, rfl⟩
    exact Or.inl ⟨rfl, .nil _, (List.append_nil _).symm⟩
  | cons name names ih =>
    rcases Wrapper.exists_render_eq_ok ⟨name⟩ config with ⟨text, htext⟩
    have hwrapper := run_writeWrapper config name world
    rw [htext] at hwrapper
    rw [Run.run_forM_cons] at h
    cases hwrite : world.files.write (wrapperFile config name) (Utf8.encode text) with
    | error cause =>
      simp only [hwrite] at hwrapper
      rw [Run.run_bind_of_error hwrapper] at h
      rcases Prod.mk.inj h with ⟨rfl, rfl⟩
      exact Or.inr ⟨[], name, names, _, rfl, rfl, .nil _, ⟨text, cause, htext, hwrite, rfl⟩,
        (List.append_nil _).symm⟩
    | ok reached =>
      simp only [hwrite] at hwrapper
      rw [Run.run_bind_of_ok hwrapper] at h
      have hevents : ∀ names, world.events ++ [.wrote (wrapperFile config name)] ++
          wrote config names = world.events ++ wrote config (name :: names) := fun names =>
        List.append_assoc _ _ _
      rcases ih h with ⟨rfl, hwritten, htold⟩ |
        ⟨earlier, other, later, failure, rfl, rfl, hwritten, hfailed, htold⟩
      · exact Or.inl ⟨rfl, .cons htext hwrite hwritten, htold.trans (hevents names)⟩
      · exact Or.inr ⟨name :: earlier, other, later, failure, rfl, rfl,
          .cons htext hwrite hwritten, hfailed, htold.trans (hevents earlier)⟩

/-- What one configuration tells. -/
theorem told_of_generateConfiguration {result : Except Failure Nat}
    (h : (generateConfiguration config : Run Nat) world = (result, after)) :
    ∃ told, after.events = world.events ++ told ∧
      Told config world.files told result after.files := by
  rw [run_generateConfiguration] at h
  cases hfound : testCases world.files config.sourceDir with
  | error failure =>
    simp only [hfound] at h
    rcases Prod.mk.inj h with ⟨rfl, rfl⟩
    exact ⟨[], (List.append_nil _).symm, .unfound hfound⟩
  | ok names =>
    simp only [hfound] at h
    rcases hreset : resetFiles world.files config.outputDir with ⟨cause | ⟨⟩, cleared⟩
    · simp only [hreset] at h
      rcases Prod.mk.inj h with ⟨rfl, rfl⟩
      exact ⟨_, rfl, .uncleared hfound hreset⟩
    · simp only [hreset] at h
      rcases hforM : (names.forM (writeWrapper config) : Run Unit)
        ⟨cleared, world.events ++ announced config names⟩ with ⟨written, reached⟩
      rcases written_of_forM hforM with ⟨rfl, hwritten, htold⟩ |
        ⟨earlier, name, later, failure, rfl, rfl, hwritten, hfailed, htold⟩
      · rw [Run.run_bind_of_ok hforM, Run.run_pure] at h
        rcases Prod.mk.inj h with ⟨rfl, rfl⟩
        exact ⟨_, htold.trans (List.append_assoc _ _ _), .complete hfound hreset hwritten⟩
      · rw [Run.run_bind_of_error hforM] at h
        rcases Prod.mk.inj h with ⟨rfl, rfl⟩
        exact ⟨_, htold.trans (List.append_assoc _ _ _),
          .unwritten hfound hreset hwritten hfailed⟩

/-- What configurations tell one after the other. -/
theorem course_of_foldlM {start : Summary} {result : Except Failure Summary}
    (h : (all.foldlM generateNext start : Run Summary) world = (result, after)) :
    ∃ traces outcome, after.events = world.events ++ traces.flatten ∧
      Course all world.files traces outcome after.files ∧
      result = outcome.map fun summary =>
        ⟨start.configurations + summary.configurations,
          start.filesWritten + summary.filesWritten⟩ := by
  induction all generalizing start world with
  | nil =>
    rcases Prod.mk.inj ((Run.run_pure start world).symm.trans h) with ⟨rfl, rfl⟩
    exact ⟨[], _, (List.append_nil _).symm, .nil _, rfl⟩
  | cons config all ih =>
    rw [List.foldlM_cons] at h
    rcases hfirst : (generateConfiguration config : Run Nat) world with ⟨failure | count, reached⟩
    · rw [Run.run_bind_of_error ((run_generateNext_eq_error_iff start config world reached
        failure).mpr hfirst)] at h
      rcases Prod.mk.inj h with ⟨rfl, rfl⟩
      rcases told_of_generateConfiguration hfirst with ⟨told, hevents, htold⟩
      exact ⟨[told], _, hevents.trans (congrArg _ (List.append_nil _).symm), .stop htold, rfl⟩
    · rw [Run.run_bind_of_ok ((run_generateNext_eq_ok_iff start _ config world reached).mpr
        ⟨count, hfirst, rfl⟩)] at h
      rcases told_of_generateConfiguration hfirst with ⟨told, hevents, htold⟩
      rcases ih h with ⟨traces, outcome, hothers, hcourse, rfl⟩
      refine ⟨told :: traces, _, ?_, .next htold hcourse, ?_⟩
      · rw [hothers, hevents, List.append_assoc, List.flatten_cons]
      · cases outcome with
        | error failure => rfl
        | ok summary =>
          simp only [Except.map, Except.ok.injEq, Summary.mk.injEq]
          omega

/-- An announcement is no detail, and it announces the test cases that are found. -/
theorem count_announced (config : Configuration) (names : List String) :
    Event.countDebug (announced config names) = 0 ∧
      Event.sumTestCases (announced config names) = names.length ∧
      ∀ event ∈ announced config names, event.isDone = false := by
  unfold announced
  split
  · exact ⟨rfl, rfl, List.forall_mem_cons.mpr ⟨rfl, List.forall_mem_singleton.mpr rfl⟩⟩
  · exact ⟨rfl, rfl, List.forall_mem_singleton.mpr rfl⟩

/-- Each wrapper that is told of is one detail. -/
theorem count_wrote (config : Configuration) (names : List String) :
    Event.countDebug (wrote config names) = names.length ∧
      Event.sumTestCases (wrote config names) = 0 ∧
      ∀ event ∈ wrote config names, event.isDone = false := by
  induction names with
  | nil => exact ⟨rfl, rfl, List.forall_mem_nil _⟩
  | cons name names ih =>
    rcases ih with ⟨hdebug, htests, hdone⟩
    have hcons : wrote config (name :: names) =
        [.wrote (wrapperFile config name)] ++ wrote config names := rfl
    rw [hcons, Event.countDebug_append, Event.sumTestCases_append, hdebug, htests]
    exact ⟨Nat.add_comm _ _, rfl, List.forall_mem_cons.mpr ⟨rfl, hdone⟩⟩

/-- A configuration that is complete has told of as many wrappers as test cases, and no
    configuration tells of the end of a run. -/
theorem Told.count {result : Except Failure Nat} (h : Told config files told result left) :
    (∀ event ∈ told, event.isDone = false) ∧
      ∀ count, result = .ok count →
        Event.countDebug told = count ∧ Event.sumTestCases told = count := by
  have happend : ∀ names written, ∀ event ∈ announced config names ++ wrote config written,
      event.isDone = false := fun names written event hmem =>
    (List.mem_append.mp hmem).elim ((count_announced config names).2.2 event)
      ((count_wrote config written).2.2 event)
  cases h with
  | unfound => exact ⟨List.forall_mem_nil _, nofun⟩
  | uncleared => exact ⟨(count_announced config _).2.2, nofun⟩
  | unwritten => exact ⟨happend _ _, nofun⟩
  | complete =>
    refine ⟨happend _ _, ?_⟩
    rintro _ ⟨⟩
    rw [Event.countDebug_append, Event.sumTestCases_append, (count_announced config _).1,
      (count_announced config _).2.1, (count_wrote config _).1, (count_wrote config _).2.1]
    exact ⟨Nat.zero_add _, Nat.add_zero _⟩

/-- Configurations that are all complete have told of as many wrappers as test cases, and
    of as many as their summary says. -/
theorem Course.count {result : Except Failure Summary} (h : Course all files traces result left) :
    (∀ event ∈ traces.flatten, event.isDone = false) ∧
      ∀ summary, result = .ok summary → summary.configurations = all.length ∧
        Event.countDebug traces.flatten = summary.filesWritten ∧
        Event.sumTestCases traces.flatten = summary.filesWritten := by
  induction h with
  | nil files =>
    refine ⟨List.forall_mem_nil _, ?_⟩
    rintro _ ⟨⟩
    exact ⟨rfl, rfl, rfl⟩
  | stop htold =>
    rw [List.flatten_singleton]
    exact ⟨htold.count.1, nofun⟩
  | @next config later files reached left told others count result htold _ ih =>
    rcases htold.count with ⟨hdone, hcount⟩
    rcases ih with ⟨hothers, hsummary⟩
    rw [List.flatten_cons]
    refine ⟨fun event hmem => (List.mem_append.mp hmem).elim (hdone event) (hothers event), ?_⟩
    cases result with
    | error failure => exact nofun
    | ok summary =>
      rintro _ ⟨⟩
      rcases hcount count rfl with ⟨hdebug, htests⟩
      rcases hsummary summary rfl with ⟨hall, hdebugs, hsum⟩
      rw [Event.countDebug_append, Event.sumTestCases_append, hdebug, htests, hdebugs, hsum]
      exact ⟨congrArg (· + 1) hall, Nat.add_comm _ _, Nat.add_comm _ _⟩

/-- What a run of configurations tells. -/
theorem exists_course (layout : Layout) (world : World) :
    ∃ result after traces, (generate layout : Run Summary) world = (result, after) ∧
      after.events = world.events ++ traces.flatten ∧
      Course (configurations layout) world.files traces result after.files := by
  rcases hrun : (generate layout : Run Summary) world with ⟨result, after⟩
  rcases course_of_foldlM hrun with ⟨traces, outcome, hevents, hcourse, rfl⟩
  have hstart : (outcome.map fun summary =>
      (⟨0 + summary.configurations, 0 + summary.filesWritten⟩ : Summary)) = outcome := by
    cases outcome with
    | error failure => rfl
    | ok summary => simp only [Except.map, Nat.zero_add]
  exact ⟨_, after, traces, rfl, hevents, hstart.symm ▸ hcourse⟩

end Generation

namespace Program

/-- The events that a filter shows. -/
def logged (filter : Filter) (events : List Event) : List Event := events.filter filter.shows

/-- The last event of a run, if all configurations are complete. -/
def lastEvents : Except Failure Summary → List Event
  | .ok summary => [.done summary.configurations summary.filesWritten]
  | .error _ => []

/-- A run generates, tells of the end if that has succeeded, and says so by its exit
    status. -/
theorem run_run {options : Options} {world after : World} {result : Except Failure Summary}
    (h : (Generation.generate options.layout : Run Summary) world = (result, after)) :
    ∃ outcome, (run options : StateM World Outcome) world =
      (outcome, ⟨after.files, after.events ++ lastEvents result⟩) ∧
      (outcome.exitStatus = if result.isOk then 0 else 1) := by
  have hrun : (run options : StateM World Outcome) world =
      match (generateAll options.layout : Run Summary) world with
      | (.ok _, reached) => (⟨0, ""⟩, reached)
      | (.error failure, reached) => (⟨1, Report.ofFailure options.layout failure⟩, reached) := by
    simp only [run, bind, StateT.bind, ExceptT.run]
    rcases (generateAll options.layout : Run Summary) world with ⟨_ | _, reached⟩ <;> rfl
  rw [hrun]
  unfold generateAll
  cases result with
  | error failure =>
    rw [Run.run_bind_of_error h]
    exact ⟨_, by rw [lastEvents, List.append_nil], rfl⟩
  | ok summary =>
    rw [Run.run_bind_of_ok h, Run.run_bind, Generation.run_tell]
    exact ⟨_, rfl, rfl⟩

/-- What is logged if no filter is written down. -/
theorem logged_unwritten (options : Options) (events : List Event) :
    logged (filter none { options with verbosity := 0 }) events =
        events.filter (·.level != .debug) ∧
      ∀ more, logged (filter none { options with verbosity := more + 1 }) events = events := by
  have hshows : ∀ verbosity event, (filter none { options with verbosity }).shows event =
      (verbosity != 0 || event.level != .debug) := by
    intro verbosity event
    rw [filter_unwritten, Bool.eq_iff_iff, Filter.shows_ofVerbosity, Bool.or_eq_true, bne_iff_ne,
      bne_iff_ne]
  constructor
  · exact List.filter_congr fun event _ => hshows 0 event
  · intro more
    exact List.filter_eq_self.mpr fun event _ => hshows (more + 1) event

/-- What a run tells is the record of what has happened in it, however it ends. The events
    of a generation are those of the configurations that were begun, in their order. The
    program tells of the end exactly if the generation has succeeded, and then the files it
    tells of are the wrappers and the test cases that were told of before. How verbose the
    program is changes nothing but what is shown of this: with any verbosity everything, and
    without it everything but the details, which are the wrappers. -/
theorem run_tells (layout : Layout) (world : World) :
    ∃ (result : Except Failure Summary) (reached : World) (traces : List (List Event)),
      (Generation.generate layout : Run Summary) world = (result, reached) ∧
      reached.events = world.events ++ traces.flatten ∧
      Generation.Course (configurations layout) world.files traces result reached.files ∧
      (∀ files source names, Generation.testCases files source = .ok names →
        names.Pairwise fun a b => Utf8.encode a < Utf8.encode b) ∧
      ∀ options : Options, options.layout = layout →
        ∃ (outcome : Outcome) (after : World) (told : List Event),
          (∀ verbosity, (run { options with verbosity } : StateM World Outcome) world =
            (outcome, after)) ∧
          after.files = reached.files ∧ after.events = world.events ++ told ∧
          ((∃ summary, result = .ok summary) ↔ ∃ event ∈ told, event.isDone = true) ∧
          (∀ summary, result = .ok summary → outcome.exitStatus = 0 ∧
            told = traces.flatten ++ [.done summary.configurations summary.filesWritten] ∧
            summary.filesWritten = Event.countDebug told ∧
            summary.filesWritten = Event.sumTestCases told) ∧
          (∀ failure, result = .error failure → outcome.exitStatus = 1 ∧
            told = traces.flatten) ∧
          (∀ more, logged (filter none { options with verbosity := more + 1 }) told = told) ∧
          logged (filter none { options with verbosity := 0 }) told =
            told.filter (·.level != .debug) ∧
          logged (filter none { options with verbosity := 0 }) told =
            (logged (filter none { options with verbosity := 1 }) told).filter
              (·.level != .debug) := by
  rcases Generation.exists_course layout world with
    ⟨result, reached, traces, hrun, hevents, hcourse⟩
  refine ⟨result, reached, traces, hrun, hevents, hcourse,
    fun _ _ _ => Generation.pairwise_testCases, ?_⟩
  rintro options rfl
  rcases run_run hrun with ⟨outcome, houtcome, hstatus⟩
  rcases hcourse.count with ⟨hdone, hcount⟩
  have hevents' : reached.events ++ lastEvents result =
      world.events ++ (traces.flatten ++ lastEvents result) := by
    rw [hevents, List.append_assoc]
  refine ⟨outcome, _, traces.flatten ++ lastEvents result, fun _ => houtcome, rfl, hevents', ?_,
    ?_, ?_, (logged_unwritten options _).2, (logged_unwritten options _).1, ?_⟩
  · constructor
    · rintro ⟨summary, rfl⟩
      exact ⟨_, List.mem_append_right _ List.mem_cons_self, rfl⟩
    · rintro ⟨event, hmem, hend⟩
      cases result with
      | ok summary => exact ⟨summary, rfl⟩
      | error failure =>
        rw [lastEvents, List.append_nil] at hmem
        exact absurd (hend.symm.trans (hdone event hmem)) nofun
  · rintro summary rfl
    rcases hcount summary rfl with ⟨_, hdebug, htests⟩
    rw [Event.countDebug_append, Event.sumTestCases_append, hdebug, htests]
    exact ⟨hstatus, rfl, rfl, rfl⟩
  · rintro failure rfl
    exact ⟨hstatus, List.append_nil _⟩
  · rw [(logged_unwritten options _).1, (logged_unwritten options _).2 0]

end Program

end TestWrappers
