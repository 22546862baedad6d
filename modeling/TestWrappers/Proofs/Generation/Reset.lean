import TestWrappers.Proofs.FileSystem.Clearing
import TestWrappers.Proofs.Generation.Outputs
import TestWrappers.Proofs.Generation.Running

/-!
# What Resetting Leaves

When the directory of a configuration is empty after it has been reset.

A reset removes what the path leads to and makes the path anew. The two look the
path up separately, and in between the entries on the way may come and go. So
the path may lead to another directory in the end than the one that was emptied,
and that one may hold something for one of two reasons. Something was there
before and was not removed, because the path did not lead there yet; or one of
the paths on the way, made so that the path can be followed, is inside of it.

There are no other reasons, so the two together say exactly when a reset
directory is empty (`FileSystem.names_eq_nil_iff`). Neither can occur for a path
that climbs only before it goes to any name.

## Main definitions

* `FileSystem.Spares`: Something in a directory outlives the removal.
* `FileSystem.Crosses`: A path on the way lies inside a directory.

## Theorems

* `FileSystem.names_eq_nil_iff`: When a directory is empty after a reset.
* `Generation.reset_names_eq_nil_iff`: The same of a run, with the paths for
  which it is always empty, and what is written next.
* `Generation.reset_keeps_stale_file`: A directory that is not.
-/

namespace TestWrappers

namespace FileSystem

/-- Something is in the directory that is not removed with what the path leads
    to. -/
def Spares (files : FileSystem) (path : Path) (place : Location) : Prop :=
  ∃ name, (files.tree.get? (name :: place)).isSome = true ∧ ¬ files.TakenBy path (name :: place)

/-- One of the paths on the way to the path leads into the directory. -/
def Crosses (files : FileSystem) (path : Path) (place : Location) : Prop :=
  ∃ passed ∈ path.ancestors.tail, ∃ inner, files.locate passed = .ok inner ∧
    (files.tree.get? inner).isSome = true ∧ inner.isWithin place = true ∧ inner ≠ place

variable {files left after : FileSystem} {path : Path} {place : Location}

-- An entry that making the path has added is where a path on the way leads.
theorem crosses_of_made (hmake : left.makeDirs path = (.ok (), after)) (hpath : path.bytes ≠ [])
    (hplace : after.locate path = .ok place) {inner : Location}
    (hin : inner.isWithin place = true) (hne : inner ≠ place)
    (hnone : left.tree.get? inner = none) (hsome : (after.tree.get? inner).isSome = true) :
    after.Crosses path place := by
  rcases makeEach_ancestors hmake hpath with ⟨passed, hancestors, _⟩
  rcases Option.isSome_iff_exists.mp hsome with ⟨entry, hentry⟩
  rcases (grown_of_makeDirs hmake).made inner entry hnone hentry with ⟨_, other, hmem, hlocate⟩
  rw [hancestors] at hmem
  rcases List.mem_cons.mp hmem with rfl | htail
  · -- The path itself leads to the directory and not into it.
    exact absurd (Except.ok.inj (hlocate.symm.trans hplace)) hne
  · rw [Crosses, hancestors, List.tail_cons]
    exact ⟨other, htail, inner, hlocate, hsome, hin, hne⟩

/-- A path that led somewhere, leads nowhere in between and leads to a directory in
    the end goes through an entry that was missing in between. -/
theorem exists_missed_of_gone (hremoved : Removed path files left) {paths : List Path}
    (hgrown : Grown paths left after) (hexists : files.pathExists path = true)
    (hplace : after.locate path = .ok place)
    (hdir : left.tree.get? place = some .directory) :
    ∃ missed, left.tree.get? missed = none ∧ (files.tree.get? missed).isSome = true ∧
      (after.tree.get? missed).isSome = true := by
  rcases (pathExists_iff files path).mp hexists with ⟨before, hbefore, _⟩
  rcases (locate_eq_ok_iff files path before).mp hbefore with ⟨hroute, hfiles⟩
  have hafter := ((locate_eq_ok_iff after path place).mp hplace).2
  rw [walkOf, hgrown.workingDirectory, hremoved.workingDirectory] at hafter
  rw [walkOf] at hfiles
  rcases Tree.walk_eq_or_missed left.tree (maxLinks + 1)
      (path.route.start files.workingDirectory) path.route.toEnd with
    hsame | ⟨missed, hmissed, hwalk⟩
  · -- Otherwise it would lead in between to where it leads in the end.
    have hlocate : left.locate path = .ok place := by
      refine (locate_eq_ok_iff left path place).mpr ⟨?_, ?_⟩
      · rw [route_congr hremoved.pathLimit]
        exact hroute
      · rw [walkOf, hremoved.workingDirectory, ← hsame after.tree hgrown.kept]
        exact hafter
    have hstill : left.pathExists path = true :=
      (pathExists_iff left path).mpr ⟨place, hlocate, by rw [hdir]; rfl⟩
    rw [hremoved.gone] at hstill
    exact absurd hstill Bool.false_ne_true
  · have hthere : ∀ {big : Tree} {last : Location}, left.tree.PartOf big →
        big.walk (maxLinks + 1) (path.route.start files.workingDirectory) path.route.toEnd =
          .ok last → (big.get? missed).isSome = true := by
      intro big last hpart hok
      by_cases hbig : big.get? missed = none
      · rw [hwalk big hbig hpart] at hok
        cases hok
      · exact Option.isSome_iff_ne_none.mpr hbig
    exact ⟨missed, hmissed, hthere hremoved.part hfiles, hthere hgrown.kept hafter⟩

-- The directory at which the removed entry stood, if that entry is emptied and
-- stays there, is reached only through an entry inside of it.
theorem crosses_of_emptied (hremoved : Removed path files left)
    (hmake : left.makeDirs path = (.ok (), after)) (hpath : path.bytes ≠ [])
    (hplace : after.locate path = .ok place) {name : Name}
    (htaken : files.TakenBy path (name :: place))
    (hleft : (left.tree.get? (name :: place)).isSome = true) : after.Crosses path place := by
  rcases htaken with ⟨hexists, entry, hentry, hin⟩
  -- Nothing inside the removed entry is left, so it is that entry which is left.
  have heq : entry = name :: place := by
    by_cases heq : name :: place = entry
    · exact heq.symm
    · rw [hremoved.emptied entry _ hexists hentry hin heq] at hleft
      exact absurd hleft Bool.false_ne_true
  subst heq
  have hdir : left.tree.get? place = some .directory := by
    rcases Option.isSome_iff_exists.mp hleft with ⟨kept, hkept⟩
    exact Tree.get?_tail hkept
  have hgrown := grown_of_makeDirs hmake
  rcases exists_missed_of_gone hremoved hgrown hexists hplace hdir with
    ⟨missed, hmissed, hstood, hagain⟩
  -- What is missing was taken away with the entry, and has been made again.
  have hgone : files.TakenBy path missed := by
    refine Classical.byContradiction fun hnot => ?_
    rw [← hremoved.kept missed hnot, hmissed] at hstood
    exact absurd hstood Bool.false_ne_true
  rcases hgone with ⟨_, other, hother, hinside⟩
  rw [hentry, Except.ok.injEq] at hother
  subst hother
  refine crosses_of_made hmake hpath hplace (Location.isWithin_tail hinside) ?_ hmissed hagain
  intro heq
  have hlength := (Location.isWithin_iff.mp hinside).length_le
  rw [heq, List.length_cons] at hlength
  omega

/-- A directory that has been reset is empty exactly if nothing in it outlives
    the removal and no path on the way lies inside of it. -/
theorem names_eq_nil_iff (hremoved : Removed path files left)
    (hmake : left.makeDirs path = (.ok (), after)) (hpath : path.bytes ≠ [])
    (hplace : after.locate path = .ok place) :
    after.tree.names place = [] ↔ ¬ files.Spares path place ∧ ¬ after.Crosses path place := by
  have hgrown := grown_of_makeDirs hmake
  constructor
  · intro hempty
    have hnone : ∀ name, (after.tree.get? (name :: place)).isSome = false := fun name =>
      Bool.eq_false_iff.mpr fun hsome => by
        have hmem := Tree.mem_names.mpr hsome
        rw [hempty] at hmem
        exact absurd hmem List.not_mem_nil
    refine ⟨fun hspares => ?_, fun hcrosses => ?_⟩
    · -- Making the path keeps what the removal has left.
      rcases hspares with ⟨name, hsome, hnot⟩
      rw [← hremoved.kept _ hnot] at hsome
      exact absurd (hgrown.kept.isSome hsome) (Bool.eq_false_iff.mp (hnone name))
    · -- What is inside the directory is there through an entry of it.
      rcases hcrosses with ⟨_, _, inner, _, hsome, hin, hne⟩
      rcases Tree.exists_get?_of_isWithin hsome hin hne with ⟨name, hname⟩
      exact absurd hname (Bool.eq_false_iff.mp (hnone name))
  · intro h
    -- An entry was made, or it was left by the removal, either as part of what was
    -- taken or not.
    refine List.eq_nil_iff_forall_not_mem.mpr fun name hname => ?_
    have hsome := Tree.mem_names.mp hname
    have hne : name :: place ≠ place := List.cons_ne_self name place
    have hin : Location.isWithin (name :: place) place = true :=
      Location.isWithin_cons name (Location.isWithin_refl place)
    by_cases hleft : left.tree.get? (name :: place) = none
    · exact h.2 (crosses_of_made hmake hpath hplace hin hne hleft hsome)
    · have hstays := Option.isSome_iff_ne_none.mpr hleft
      by_cases htaken : files.TakenBy path (name :: place)
      · exact h.2 (crosses_of_emptied hremoved hmake hpath hplace htaken hstays)
      · exact h.1 ⟨name, hremoved.part.isSome hstays, htaken⟩

end FileSystem

namespace Generation

theorem run_reset_eq_ok_iff (output : Path) (world after : World) :
    (reset output : Run Unit) world = (.ok (), after) ↔
      resetFiles world.files output = (.ok (), after.files) ∧ after.events = world.events := by
  rw [run_reset]
  rcases hreset : resetFiles world.files output with ⟨error | ⟨⟩, left⟩
  · constructor
    · intro h
      exact absurd h nofun
    · intro h
      exact absurd h.1 nofun
  · constructor
    · intro h
      rw [← (Prod.mk.inj h).2]
      exact ⟨rfl, rfl⟩
    · intro h
      rw [(Prod.mk.inj h.1).2, ← h.2]
      rfl

/-- A reset that succeeds ends with a directory at the path. It is empty exactly
    if nothing in it outlives the removal and no path on the way lies inside of
    it, and for a straight path always. The wrappers of a configuration are
    written into what it leaves. -/
theorem reset_names_eq_nil_iff {path : Path} (hpath : path.bytes ≠ []) {world after : World}
    (h : (reset path : Run Unit) world = (.ok (), after)) :
    ∃ place, after.files.locate path = .ok place ∧
      after.files.tree.get? place = some .directory ∧
      (after.files.tree.names place = [] ↔
        ¬ world.files.Spares path place ∧ ¬ after.files.Crosses path place) ∧
      (path.IsStraight → after.files.tree.names place = []) ∧
      ∀ layout config, config ∈ configurations layout → config.outputDir = path →
        (layout.outputDir.IsStraight → after.files.tree.names place = []) ∧
        ∀ names, testCases world.files config.sourceDir = .ok names →
          (generateConfiguration config : Run Nat) world =
            ((do names.forM (writeWrapper config); return names.length) : Run Nat)
              ⟨after.files, world.events ++ announced config names⟩ := by
  have hfiles := ((run_reset_eq_ok_iff path world after).mp h).1
  rcases FileSystem.resetFiles_eq_ok hfiles with ⟨left, hremoved, hmake⟩
  rcases FileSystem.makeEach_ancestors hmake hpath with ⟨passed, _, heach⟩
  have hdir := FileSystem.isDirectory_of_makeEach heach
  rcases (FileSystem.isDirectory_iff_locate after.files path).mp hdir with ⟨place, hplace, hentry⟩
  have hstraight : path.IsStraight → after.files.tree.names place = [] := by
    intro hpath'
    rcases FileSystem.fresh_of_reset hremoved hmake hpath hpath'.route with
      ⟨_, _, _, _, hother, _, hnone⟩
    -- The fresh directory and the one found are where the one path leads.
    have heq := Except.ok.inj (hother.symm.trans hplace)
    subst heq
    refine List.eq_nil_iff_forall_not_mem.mpr fun name hname => ?_
    rw [Tree.mem_names, hnone name] at hname
    exact absurd hname Bool.false_ne_true
  refine ⟨place, hplace, hentry, FileSystem.names_eq_nil_iff hremoved hmake hpath hplace,
    hstraight, ?_⟩
  intro layout config hconfig houtput
  constructor
  · intro hlayout
    rcases Configuration.outputDir_of_mem hconfig with ⟨outer, inner, _, hjoined⟩
    refine hstraight ?_
    rw [← houtput, hjoined]
    exact (hlayout.join outer).join inner
  · intro names hnames
    rw [run_generateConfiguration, hnames, houtput]
    simp only [hfiles]

/-- A root directory that holds a directory with one file. -/
def staleFiles : FileSystem where
  tree := (Tree.empty.put [⟨Utf8.encode "b", by decide⟩] .directory).put
    [⟨Utf8.encode "Stale.java", by decide⟩, ⟨Utf8.encode "b", by decide⟩]
    (.file (Utf8.encode "// edited"))
  workingDirectory := []
  pathLimit := none

/-- A path that leads nowhere until a directory on its way is made keeps what is
    in the directory that it leads to then. -/
theorem reset_keeps_stale_file :
    ∃ after place name contents,
      (reset (.ofString "a/../b") : Run Unit) ⟨staleFiles, []⟩ = (.ok (), after) ∧
      staleFiles.tree.get? (name :: place) = some (.file contents) ∧
      after.files.locate (.ofString "a/../b") = .ok place ∧
      after.files.tree.names place = [name] ∧
      after.files.tree.get? (name :: place) = some (.file contents) := by
  refine ⟨⟨(resetFiles staleFiles (.ofString "a/../b")).2, []⟩,
    [⟨Utf8.encode "b", by decide⟩], ⟨Utf8.encode "Stale.java", by decide⟩,
    Utf8.encode "// edited", ?_, rfl, rfl, rfl, rfl⟩
  rw [run_reset]
  rfl

/-- The same directory is emptied if its path does not climb behind a name. -/
theorem reset_empties_stale_directory :
    ∃ after place, (reset (.ofString "b") : Run Unit) ⟨staleFiles, []⟩ = (.ok (), after) ∧
      after.files.locate (.ofString "b") = .ok place ∧ after.files.tree.names place = [] := by
  have hrun : (reset (.ofString "b") : Run Unit) ⟨staleFiles, []⟩ =
      (.ok (), ⟨(resetFiles staleFiles (.ofString "b")).2, []⟩) := by
    rw [run_reset]
    rfl
  have hstraight : (Path.ofString "b").IsStraight :=
    Path.isStraight_of_up_notMem (by decide)
  rcases reset_names_eq_nil_iff (by decide) hrun with ⟨place, hplace, _, _, hempty, _⟩
  exact ⟨_, place, hrun, hplace, hempty hstraight⟩

end Generation

end TestWrappers
