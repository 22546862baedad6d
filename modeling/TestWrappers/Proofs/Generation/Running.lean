import TestWrappers.Generation.Run

/-!
# Runs of Configurations

What one configuration does to a world, from looking for test cases to its last
wrapper.

The parts of a configuration were described one at a time, each as a function
from worlds to worlds. Here they are put together. A failure of any part is the
failure of the whole, and the world is then the one that the parts in front of it
have left.

A result tells which way was taken: if a configuration succeeds, its test cases
were found, its directory was reset, and every wrapper was filled in and written.

## Main definitions

* `Generation.wrapperFile`: The file of the wrapper of a test case.
* `Generation.announced`: The events told before a directory is reset.

## Theorems

* `Run.run_bind_eq_ok_iff`: Two parts succeed one after the other.
* `Run.run_foldlM_eq_error_iff`: Where a failure of a loop is raised.
* `Generation.run_writeWrapper`: What writing one wrapper does.
* `Generation.run_generateConfiguration`: What one configuration does.
* `Generation.run_generateConfiguration_eq_ok_iff`: When it succeeds.
-/

namespace TestWrappers

namespace Run

variable {α β : Type}

theorem run_bind_eq_ok_iff (first : Run α) (next : α → Run β) (world after : World) (b : β) :
    (first >>= next) world = (.ok b, after) ↔
      ∃ a reached, first world = (.ok a, reached) ∧ next a reached = (.ok b, after) := by
  rw [run_bind]
  rcases first world with ⟨failure | a, reached⟩
  · constructor
    · intro h
      exact absurd h nofun
    · intro h
      rcases h with ⟨_, _, hfirst, _⟩
      exact absurd hfirst nofun
  · constructor
    · intro h
      exact ⟨a, reached, rfl, h⟩
    · intro h
      rcases h with ⟨_, _, hfirst, hnext⟩
      rw [Prod.mk.injEq, Except.ok.injEq] at hfirst
      rcases hfirst with ⟨rfl, rfl⟩
      exact hnext

theorem run_bind_of_ok {first : Run α} {world reached : World} {a : α}
    (h : first world = (.ok a, reached)) (next : α → Run β) :
    (first >>= next) world = next a reached := by
  rw [run_bind, h]

theorem run_bind_of_error {first : Run α} {world reached : World} {failure : Failure}
    (h : first world = (.error failure, reached)) (next : α → Run β) :
    (first >>= next) world = (.error failure, reached) := by
  rw [run_bind, h]

theorem run_bind_eq_error {first : Run α} {next : α → Run β} {world after : World}
    {failure : Failure} (h : (first >>= next) world = (.error failure, after)) :
    first world = (.error failure, after) ∨
      ∃ a reached, first world = (.ok a, reached) ∧ next a reached = (.error failure, after) := by
  rcases hfirst : first world with ⟨earlier | a, reached⟩
  · rw [run_bind_of_error hfirst] at h
    rcases Prod.mk.inj h with ⟨hfailure, rfl⟩
    exact Or.inl (Except.error.inj hfailure ▸ rfl)
  · rw [run_bind_of_ok hfirst] at h
    exact Or.inr ⟨a, reached, rfl, h⟩

theorem run_forM_nil (act : α → Run Unit) (world : World) :
    (([] : List α).forM act : Run Unit) world = (.ok (), world) := rfl

theorem run_forM_cons (act : α → Run Unit) (a : α) (more : List α) :
    ((a :: more).forM act : Run Unit) = act a >>= fun _ => more.forM act := rfl

theorem run_foldlM_cons_eq_ok_iff (act : β → α → Run β) (b result : β) (a : α)
    (more : List α) (world after : World) :
    ((a :: more).foldlM act b : Run β) world = (.ok result, after) ↔
      ∃ next reached, act b a world = (.ok next, reached) ∧
        (more.foldlM act next : Run β) reached = (.ok result, after) := by
  rw [List.foldlM_cons]
  exact run_bind_eq_ok_iff (act b a) (fun next => more.foldlM act next) world after result

/-- A failure of a loop is raised at one of the elements, behind those in front of
    it. -/
theorem run_foldlM_eq_error_iff (act : β → α → Run β) (b : β) (all : List α)
    (world after : World) (failure : Failure) :
    (all.foldlM act b : Run β) world = (.error failure, after) ↔
      ∃ earlier a later next reached, all = earlier ++ a :: later ∧
        (earlier.foldlM act b : Run β) world = (.ok next, reached) ∧
        act next a reached = (.error failure, after) := by
  constructor
  · intro h
    induction all generalizing b world with
    | nil => exact absurd (Prod.mk.inj h).1 nofun
    | cons a all ih =>
      rw [List.foldlM_cons] at h
      rcases run_bind_eq_error h with hfirst | ⟨next, reached, hfirst, hrest⟩
      · exact ⟨[], a, all, b, world, rfl, rfl, hfirst⟩
      · rcases ih next reached hrest with
          ⟨earlier, other, later, last, further, rfl, hearlier, hfailed⟩
        exact ⟨a :: earlier, other, later, last, further, rfl,
          (run_foldlM_cons_eq_ok_iff act b last a earlier world further).mpr
            ⟨next, reached, hfirst, hearlier⟩, hfailed⟩
  · intro h
    rcases h with ⟨earlier, a, later, last, reached, rfl, hearlier, hfailed⟩
    induction earlier generalizing b world with
    | nil =>
      rcases Prod.mk.inj hearlier with ⟨hb, rfl⟩
      rw [List.nil_append, List.foldlM_cons, Except.ok.inj hb]
      exact run_bind_of_error hfailed _
    | cons first earlier ih =>
      rcases (run_foldlM_cons_eq_ok_iff act b last first earlier world reached).mp hearlier with
        ⟨next, middle, hfirst, hrest⟩
      rw [List.cons_append, List.foldlM_cons, run_bind_of_ok hfirst]
      exact ih next middle hrest

end Run

namespace Generation

/-- The file of the wrapper of a test case. -/
def wrapperFile (config : Configuration) (name : String) : Path :=
  config.outputDir.join (.ofString (TestCase.fileName ⟨name⟩))

/-- The events told of a configuration before its directory is reset. -/
def announced (config : Configuration) (names : List String) : List Event :=
  .generating config.toolchain.name config.tool.name names.length ::
    if names.isEmpty then [.noTestCases config.sourceDir] else []

-- Writing a wrapper, for any outcome of filling it in: computing that outcome
-- would read the whole template.
theorem run_filled (result : Except Template.Fault String) (file : Path) (world : World) :
    ((do
      let contents ← ExceptT.mk (pure (result.mapError .filling))
      writeFile file contents
      tell (.wrote file)) : Run Unit) world =
      match result with
      | .error fault => (.error (.filling fault), world)
      | .ok text =>
        match world.files.write file (Utf8.encode text) with
        | .error error => (.error (.writing file error), world)
        | .ok written => (.ok (), ⟨written, world.events ++ [.wrote file]⟩) := by
  have hwrite : ∀ text, ((do writeFile file text; tell (.wrote file)) : Run Unit) world =
      match world.files.write file (Utf8.encode text) with
      | .error error => (.error (.writing file error), world)
      | .ok written => (.ok (), ⟨written, world.events ++ [.wrote file]⟩) := by
    intro text
    rw [Run.run_bind, run_writeFile]
    cases world.files.write file (Utf8.encode text) with
    | error error => rfl
    | ok written => rfl
  cases result with
  | error fault => rfl
  | ok text => exact hwrite text

theorem run_writeWrapper (config : Configuration) (name : String) (world : World) :
    (writeWrapper config name : Run Unit) world =
      match Wrapper.render ⟨name⟩ config with
      | .error fault => (.error (.filling fault), world)
      | .ok text =>
        match world.files.write (wrapperFile config name) (Utf8.encode text) with
        | .error error => (.error (.writing (wrapperFile config name) error), world)
        | .ok written => (.ok (), ⟨written, world.events ++ [.wrote (wrapperFile config name)]⟩) :=
  run_filled (Wrapper.render ⟨name⟩ config) (wrapperFile config name) world

/-- The telling in front of a reset. -/
theorem run_announced {α : Type} (config : Configuration) (names : List String)
    (next : Run α) (world : World) :
    ((do
      tell (.generating config.toolchain.name config.tool.name names.length)
      if names.isEmpty then
        tell (.noTestCases config.sourceDir)
      next) : Run α) world = next ⟨world.files, world.events ++ announced config names⟩ := by
  unfold announced
  rw [Run.run_bind, run_tell]
  cases names with
  | nil =>
    simp only [List.isEmpty_nil, ↓reduceIte]
    rw [Run.run_bind, run_tell]
    simp only [List.append_assoc, List.singleton_append]
  | cons name names => rfl

/-- What one configuration does to a world. -/
theorem run_generateConfiguration (config : Configuration) (world : World) :
    (generateConfiguration config : Run Nat) world =
      match testCases world.files config.sourceDir with
      | .error failure => (.error failure, world)
      | .ok names =>
        match resetFiles world.files config.outputDir with
        | (.error error, left) =>
          (.error (.clearing config.outputDir error),
            ⟨left, world.events ++ announced config names⟩)
        | (.ok (), cleared) =>
          ((do names.forM (writeWrapper config); return names.length) : Run Nat)
            ⟨cleared, world.events ++ announced config names⟩ := by
  unfold generateConfiguration
  rw [Run.run_bind, run_discover]
  cases testCases world.files config.sourceDir with
  | error failure => rfl
  | ok names =>
    dsimp only
    rw [run_announced, Run.run_bind, run_reset]
    dsimp only
    rcases resetFiles world.files config.outputDir with ⟨error | ⟨⟩, reached⟩ <;> rfl

theorem run_generateConfiguration_eq_ok_iff (config : Configuration) (world after : World)
    (count : Nat) :
    (generateConfiguration config : Run Nat) world = (.ok count, after) ↔
      ∃ names cleared, testCases world.files config.sourceDir = .ok names ∧
        resetFiles world.files config.outputDir = (.ok (), cleared) ∧
        (names.forM (writeWrapper config) : Run Unit)
          ⟨cleared, world.events ++ announced config names⟩ = (.ok (), after) ∧
        count = names.length := by
  rw [run_generateConfiguration]
  constructor
  · intro h
    split at h
    · exact absurd h nofun
    · rename_i names hnames
      split at h
      · exact absurd h nofun
      · rename_i cleared hcleared
        -- Returning the count adds nothing to the world that the wrappers have left.
        rcases (Run.run_bind_eq_ok_iff _ _ _ _ _).mp h with ⟨_, reached, hwritten, hcount⟩
        rw [Run.run_pure, Prod.mk.injEq, Except.ok.injEq] at hcount
        rcases hcount with ⟨rfl, rfl⟩
        exact ⟨names, cleared, hnames, hcleared, hwritten, rfl⟩
  · intro h
    rcases h with ⟨names, cleared, hnames, hcleared, hwritten, rfl⟩
    simp only [hnames, hcleared]
    exact (Run.run_bind_eq_ok_iff _ _ _ _ _).mpr ⟨(), after, hwritten, rfl⟩

theorem run_generateNext_eq_ok_iff (summary next : Summary) (config : Configuration)
    (world after : World) :
    (generateNext summary config : Run Summary) world = (.ok next, after) ↔
      ∃ count, (generateConfiguration config : Run Nat) world = (.ok count, after) ∧
        next = ⟨summary.configurations + 1, summary.filesWritten + count⟩ := by
  unfold generateNext
  rw [Run.run_bind_eq_ok_iff]
  constructor
  · intro h
    rcases h with ⟨count, reached, hcount, hnext⟩
    rw [Run.run_pure, Prod.mk.injEq, Except.ok.injEq] at hnext
    rcases hnext with ⟨rfl, rfl⟩
    exact ⟨count, hcount, rfl⟩
  · intro h
    rcases h with ⟨count, hcount, rfl⟩
    exact ⟨count, after, hcount, rfl⟩

theorem run_generateNext_eq_error_iff (summary : Summary) (config : Configuration)
    (world after : World) (failure : Failure) :
    (generateNext summary config : Run Summary) world = (.error failure, after) ↔
      (generateConfiguration config : Run Nat) world = (.error failure, after) := by
  unfold generateNext
  constructor
  · intro h
    rcases Run.run_bind_eq_error h with hfailed | ⟨count, reached, _, hcount⟩
    · exact hfailed
    · rw [Run.run_pure] at hcount
      exact absurd (Prod.mk.inj hcount).1 nofun
  · intro h
    exact Run.run_bind_of_error h _

end Generation

end TestWrappers
