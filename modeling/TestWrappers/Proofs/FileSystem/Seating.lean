import TestWrappers.Proofs.FileSystem.Sparing
import TestWrappers.Proofs.Path.Rooting

/-!
# Seen From a Root

What is done by way of a root is done from that root.

A root that is reached without climbing and without links is a directory that stands
where its path lands. As long as it does, the steps of the root lead there, and going on
behind them is the same as staying there and going on. So each operation with a path by
way of the root does what it does with the tied path, seen from the root: it finds the
same, it fails in the same way, and it leaves the same entries.

Only making directories needs more, since the paths that are passed through do not end
with those that are tied. But the directory right behind the root can never fail for want
of something on the way to it, because the root is there. So the paths that the root
itself passes through are never made.

## Main definitions

* `FileSystem.inside`: The same entries, seen from another directory.
* `FileSystem.Seated`: A root that is there, and stays where it is.
* `FileSystem.SamePlace`: Paths that name one place, each in its own file system.

## Theorems

* `FileSystem.seated_of_seenFrom`: The directory that a root leads to seats it.
* `FileSystem.Seated.advance_behind`: Going on behind the steps of the root.
* `FileSystem.Seated.locate`, `FileSystem.Seated.locateEntry`: Where tied paths lead.
* `FileSystem.Seated.write`, `FileSystem.Seated.removeTree`: What is done with tied paths.
* `FileSystem.Seated.makeDir_of_stepsFrom`: A directory right behind the root.
* `FileSystem.Seated.makeDirs`, `FileSystem.Seated.resetFiles`: Making a directory by way
  of the root, and emptying it.
-/

namespace TestWrappers

namespace FileSystem

/-- The same entries, seen from another directory. -/
def inside (files : FileSystem) (home : Location) : FileSystem :=
  { files with workingDirectory := home }

theorem inside_tree (files : FileSystem) (home : Location) :
    (files.inside home).tree = files.tree := rfl

/-- A root can be looked up without climbing, and a directory stands where it lands. -/
structure Seated (root : Path) (home : Location) (files : FileSystem) : Prop where
  /-- The root is not empty. -/
  named : root.bytes ≠ []
  /-- No byte in it is one that no path may have. -/
  zero : 0 ∉ root.bytes
  /-- It does not climb. -/
  climb : Step.climb ∉ root.route.steps
  /-- No name in it is too long. -/
  overlong : Step.overlong ∉ root.route.steps
  /-- This is where it lands. -/
  lands : root.landing files.workingDirectory = home
  /-- A directory stands there. -/
  directory : files.tree.get? home = some .directory
  /-- Paths may be as long as they want. -/
  unlimited : files.pathLimit = none

/-- Two paths name one place, each of them in its own file system: they land at the same
    location, and they lead to the same one, or fail to do so alike, whether or not a link
    in the last place is followed. -/
structure SamePlace (here there : FileSystem) (a b : Path) : Prop where
  /-- They land at the same location. -/
  landing : b.landing there.workingDirectory = a.landing here.workingDirectory
  /-- They lead to the same location. -/
  located : there.locate b = here.locate a
  /-- They name the same entry. -/
  entry : there.locateEntry b = here.locateEntry a

variable {root a b : Path} {home : Location} {files other : FileSystem} {ra rb : Route}

/-- The directory that a path leads to seats the path, if there is no link on its way and
    it does not climb. -/
theorem seated_of_seenFrom (h : files.seenFrom root = .ok other)
    (hup : Path.Component.up ∉ root.components)
    (hlinks : files.tree.Unlinked (root.landing files.workingDirectory))
    (hlimit : files.pathLimit = none) :
    Seated root other.workingDirectory files ∧ other = files.inside other.workingDirectory := by
  simp only [seenFrom, bind, Except.bind] at h
  cases hplace : files.locate root with
  | error error =>
    rw [hplace] at h
    exact absurd h nofun
  | ok place =>
    rw [hplace] at h
    dsimp only at h
    split at h
    · rename_i hdir
      rw [← Except.ok.inj h]
      have hclimb := Path.climb_notMem_of_up_notMem hup
      rcases (locate_eq_ok_iff _ _ _).mp hplace with ⟨hroute, hwalk⟩
      rcases (route_eq_ok_iff _ _ _).mp hroute with ⟨hzero, hne, _⟩
      exact ⟨⟨hne, hzero, hclimb, Tree.overlong_notMem_of_walk (Tree.walk_steps_of_toEnd hwalk),
        (locate_eq_landing hclimb hlinks hplace).symm, hdir, hlimit⟩, rfl⟩
    · exact absurd h nofun

/-- A root stays where it is as long as its directory is there. -/
theorem Seated.mono (h : Seated root home files)
    (hcwd : other.workingDirectory = files.workingDirectory)
    (hlimit : other.pathLimit = files.pathLimit)
    (hdir : other.tree.get? home = some .directory) : Seated root home other :=
  ⟨h.named, h.zero, h.climb, h.overlong, hcwd ▸ h.lands, hdir, hlimit.trans h.unlimited⟩

theorem Seated.advance (h : Seated root home files) :
    files.tree.advance (root.route.start files.workingDirectory) root.route.steps =
      .arrived home := by
  have hlands := h.lands
  unfold Path.landing at hlands
  have hdir := h.directory
  rw [← hlands] at hdir ⊢
  exact Tree.advance_along h.climb h.overlong hdir

/-- Going on behind the steps of the root is going on from there. -/
theorem Seated.advance_behind (h : Seated root home files) (steps : List Step) :
    files.tree.advance (root.route.start files.workingDirectory) (root.route.steps ++ steps) =
      files.tree.advance home (.stay :: steps) := by
  have hstay : files.tree.advance home (.stay :: steps) = files.tree.advance home steps := by
    simp only [Tree.advance, h.directory]
  rw [Tree.advance_append, h.advance, hstay]
  rfl

/-- Tied routes reach the same, to their ends and in front of their last steps. -/
theorem Seated.advance_of_tied (h : Seated root home files)
    (hroute : Route.Tied root.route ra rb) :
    files.tree.advance (ra.start files.workingDirectory) ra.toEnd =
        files.tree.advance (rb.start home) rb.toEnd ∧
      files.tree.advance (ra.start files.workingDirectory) ra.toLast =
        files.tree.advance (rb.start home) rb.toLast := by
  rcases hroute with ⟨hroot, rfl⟩ | ⟨steps, slash, hne, rfl, rfl⟩
  · simp only [Route.start, hroot, if_true, and_self]
  · constructor
    · cases slash with
      | true =>
        have hend := h.advance_behind (steps ++ [.stay])
        rw [← List.append_assoc] at hend
        exact hend
      | false => exact h.advance_behind steps
    · unfold Route.toLast
      rw [List.dropLast_append_of_ne_nil hne, List.dropLast_cons_of_ne_nil hne, List.append_assoc]
      exact h.advance_behind (steps.dropLast ++ [.stay])

theorem Seated.follow (h : Seated root home files) (hroute : Route.Tied root.route ra rb) :
    (files.inside home).follow rb rb.toEnd = files.follow ra ra.toEnd ∧
      (files.inside home).follow rb rb.toLast = files.follow ra ra.toLast := by
  rcases h.advance_of_tied hroute with ⟨hend, hlast⟩
  have hwalk : ∀ {stepsA stepsB : List Step},
      files.tree.advance (ra.start files.workingDirectory) stepsA =
        files.tree.advance (rb.start home) stepsB →
      (files.inside home).follow rb stepsB = files.follow ra stepsA := by
    intro stepsA stepsB heq
    unfold FileSystem.follow Tree.walk
    rw [heq]
    rfl
  exact ⟨hwalk hend, hwalk hlast⟩

/-- Tied paths can both be looked up, or both not and for the same reason. -/
theorem Seated.route_cases (h : Seated root home files) (htied : root.Tied a b) :
    (∃ error, files.route a = .error error ∧ (files.inside home).route b = .error error) ∨
    (files.route a = .ok a.route ∧ (files.inside home).route b = .ok b.route ∧
      Route.Tied root.route a.route b.route) := by
  have hroute := htied.route h.named
  -- No path is too long, so nothing but the bytes decides.
  have hshort : ∀ path, files.isTooLong path = false := fun path => by
    unfold isTooLong
    rw [h.unlimited]
  have hshort' : ∀ path, (files.inside home).isTooLong path = false := hshort
  have hsame : (0 ∈ a.bytes ↔ 0 ∈ b.bytes) ∧ a.bytes ≠ [] ∧ b.bytes ≠ [] := by
    rcases htied with ⟨habsolute, rfl⟩ | ⟨more, hrelative, hne, rfl, rfl⟩
    · have hne : a.bytes ≠ [] := by
        intro hnil
        rw [Path.isAbsolute, hnil] at habsolute
        exact absurd habsolute (by decide)
      exact ⟨Iff.rfl, hne, hne⟩
    · have hglue : ∀ path : Path, 0 ∉ path.glue := by
        intro path
        unfold Path.glue
        split
        · exact List.not_mem_nil
        · decide
      have hdot : 0 ∉ (Path.ofString ".").bytes := by decide
      rw [Path.join_of_relative _ hrelative, Path.join_of_relative _ hrelative]
      simp only [List.mem_append, h.zero, hglue, hdot, false_or, true_and]
      have hne' : ∀ front : List UInt8, front ++ more.bytes ≠ [] := fun front hnil =>
        hne (List.append_eq_nil_iff.mp hnil).2
      rw [← List.append_assoc, ← List.append_assoc]
      exact ⟨hne' _, hne' _⟩
  rcases hsame with ⟨hzero, hnea, hneb⟩
  unfold FileSystem.route
  rw [hshort, hshort', if_neg hnea, if_neg hneb]
  by_cases ha : 0 ∈ a.bytes
  · rw [if_pos ha, if_pos (hzero.mp ha)]
    exact Or.inl ⟨_, rfl, rfl⟩
  · rw [if_neg ha, if_neg fun hb => ha (hzero.mpr hb)]
    exact Or.inr ⟨rfl, rfl, hroute⟩

theorem Seated.locate (h : Seated root home files) (htied : root.Tied a b) :
    (files.inside home).locate b = files.locate a := by
  unfold FileSystem.locate
  rcases h.route_cases htied with ⟨error, ha, hb⟩ | ⟨ha, hb, hroute⟩
  · rw [ha, hb]
    rfl
  · rw [ha, hb]
    exact (h.follow hroute).1

theorem Seated.status (h : Seated root home files) (htied : root.Tied a b) :
    (files.inside home).status b = files.status a := by
  unfold FileSystem.status
  rw [h.locate htied]
  rfl

theorem Seated.isDirectory (h : Seated root home files) (htied : root.Tied a b) :
    (files.inside home).isDirectory b = files.isDirectory a := by
  unfold FileSystem.isDirectory
  rw [h.status htied]

theorem Seated.pathExists (h : Seated root home files) (htied : root.Tied a b) :
    (files.inside home).pathExists b = files.pathExists a := by
  unfold FileSystem.pathExists
  rw [h.status htied]

theorem Seated.list (h : Seated root home files) (htied : root.Tied a b) :
    (files.inside home).list b = files.list a := by
  unfold FileSystem.list
  rw [h.locate htied]
  rfl

theorem Seated.locateEntry (h : Seated root home files) (htied : root.Tied a b) :
    (files.inside home).locateEntry b = files.locateEntry a := by
  unfold FileSystem.locateEntry
  rcases h.route_cases htied with ⟨error, ha, hb⟩ | ⟨ha, hb, hroute⟩
  · rw [ha, hb]
    rfl
  · rcases h.follow hroute with ⟨hend, hlast⟩
    simp only [ha, hb, bind, Except.bind, hend, hlast, hroute.last?.1, hroute.last?.2]
    rfl

/-- What is done with the entry that a path names is done alike by way of the root and from
    there, if it is done alike in the directory in which the last step is taken. -/
theorem Seated.atLast {act act' : Route → Location → Except FileError FileSystem}
    (h : Seated root home files) (htied : root.Tied a b)
    (hact : ∀ directory, act' b.route directory = (act a.route directory).map (·.inside home)) :
    (do
      let route ← (files.inside home).route b
      let directory ← (files.inside home).follow route route.toLast
      act' route directory) =
      Except.map (·.inside home) (do
        let route ← files.route a
        let directory ← files.follow route route.toLast
        act route directory) := by
  rcases h.route_cases htied with ⟨error, ha, hb⟩ | ⟨ha, hb, hroute⟩
  · rw [ha, hb]
    rfl
  · simp only [ha, hb, bind, Except.bind, (h.follow hroute).2]
    cases files.follow a.route a.route.toLast with
    | error error => rfl
    | ok directory => exact hact directory

theorem Seated.makeDir (h : Seated root home files) (htied : root.Tied a b) :
    (files.inside home).makeDir b = (files.makeDir a).map (·.inside home) := by
  unfold FileSystem.makeDir
  refine h.atLast htied fun directory => ?_
  rw [← (htied.route h.named).last?.1, inside_tree]
  split
  · split <;> rfl
  all_goals rfl

theorem Seated.removeDir (h : Seated root home files) (htied : root.Tied a b) :
    (files.inside home).removeDir b = (files.removeDir a).map (·.inside home) := by
  unfold FileSystem.removeDir
  refine h.atLast htied fun directory => ?_
  rw [← (htied.route h.named).last?.1, inside_tree]
  split
  · split
    · rfl
    · split <;> rfl
    · rfl
  all_goals rfl

theorem Seated.unlink (h : Seated root home files) (htied : root.Tied a b) :
    (files.inside home).unlink b = (files.unlink a).map (·.inside home) := by
  unfold FileSystem.unlink
  refine h.atLast htied fun directory => ?_
  rw [← (htied.route h.named).last?.1, ← (htied.route h.named).last?.2, inside_tree]
  split
  · split
    · rfl
    · rfl
    · split <;> rfl
  all_goals rfl

/-- A file is opened at the same location. Behind the first link it no longer matters
    where one was. -/
theorem Seated.write (h : Seated root home files) (htied : root.Tied a b)
    (contents : List UInt8) :
    (files.inside home).write b contents = (files.write a contents).map (·.inside home) := by
  unfold FileSystem.write
  rcases h.route_cases htied with ⟨error, ha, hb⟩ | ⟨ha, hb, hroute⟩
  · rw [ha, hb]
    rfl
  · have hopened : files.tree.walkForWriting (maxLinks + 1) home b.route =
        files.tree.walkForWriting (maxLinks + 1) files.workingDirectory a.route := by
      unfold Tree.walkForWriting
      rw [(h.advance_of_tied hroute).2, ← hroute.last?.1, ← hroute.last?.2]
    have hopened' : (files.inside home).tree.walkForWriting (maxLinks + 1)
        (files.inside home).workingDirectory b.route =
          files.tree.walkForWriting (maxLinks + 1) files.workingDirectory a.route := hopened
    simp only [ha, hb, bind, Except.bind, hopened']
    cases files.tree.walkForWriting (maxLinks + 1) files.workingDirectory a.route <;> rfl

theorem attempt_inside (files : FileSystem) (home : Location)
    (change : Except FileError FileSystem) :
    (files.inside home).attempt (change.map (·.inside home)) =
      (files.attempt change).map id (·.inside home) := by
  cases change <;> rfl

theorem Seated.acceptDir (h : Seated root home files) (htied : root.Tied a b)
    (error : FileError) : (files.inside home).acceptDir b error =
      (files.acceptDir a error).map id (·.inside home) := by
  unfold FileSystem.acceptDir
  rw [h.isDirectory htied]
  split <;> rfl

/-- What is removed by way of the root is what is removed from there, if the root is not
    in it. -/
theorem Seated.removeTree (h : Seated root home files) (htied : root.Tied a b)
    (haway : ∀ place, files.locateEntry a = .ok place → home.isWithin place = false) :
    (files.inside home).removeTree b = (files.removeTree a).map id (·.inside home) := by
  unfold FileSystem.removeTree
  rw [h.locateEntry htied]
  cases hplace : files.locateEntry a with
  | error error => rfl
  | ok place =>
    simp only [inside_tree]
    split
    · rw [h.unlink htied]
      exact attempt_inside _ _ _
    · -- The directory of the root is still there when everything in the other one is gone.
      have hemptied : Seated root home (files.withTree (files.tree.clear place)) := by
        refine h.mono rfl rfl ((Tree.get?_clear _ _ _).trans ?_)
        rw [haway place hplace, if_neg fun hboth => absurd hboth.1 Bool.false_ne_true]
        exact h.directory
      have hremove : ((files.inside home).withTree (files.tree.clear place)).removeDir b =
          ((files.withTree (files.tree.clear place)).removeDir a).map (·.inside home) :=
        hemptied.removeDir htied
      rw [hremove]
      cases (files.withTree (files.tree.clear place)).removeDir a with
      | ok left => rfl
      | error error =>
        simp only [Except.map]
        split
        · rfl
        · rfl
    · rfl

/-- The directory of the root stays unless it is taken away. -/
theorem Seated.of_reduced (h : Seated root home files) (hreduced : Reduced a files other)
    (haway : ¬ files.TakenBy a home) : Seated root home other :=
  h.mono hreduced.workingDirectory hreduced.pathLimit ((hreduced.kept home haway).trans h.directory)

theorem Seated.of_grown {paths : List Path} (h : Seated root home files)
    (hgrown : Grown paths files other) : Seated root home other :=
  h.mono hgrown.workingDirectory hgrown.pathLimit (hgrown.kept home _ h.directory)

theorem Seated.of_write {contents : List UInt8} (h : Seated root home files)
    (hwrite : files.write a contents = .ok other) : Seated root home other := by
  rcases (write_eq_ok_iff _ _ _ _).mp hwrite with ⟨_, place, _, _, rfl⟩
  refine h.mono rfl rfl ?_
  change (files.tree.put place (.file contents)).get? home = some .directory
  by_cases heq : home = place
  · -- Nothing is put where a directory is.
    have hcan : ¬ files.tree.CanHold place := by
      cases place with
      | nil => exact id
      | cons name outer => exact fun hcan => hcan.2 (heq ▸ h.directory)
    rw [Tree.put, dif_neg hcan]
    exact h.directory
  · rw [Tree.get?_put_of_ne _ _ heq]
    exact h.directory

/-- Directories are made by way of the root as they are made from there, as far as the
    paths are tied. What comes behind them is not tried if one of them does not fail for
    want of something on its way. -/
theorem Seated.makeEach {pathsA pathsB restA restB : List Path} (h : Seated root home files)
    (htied : List.Forall₂ root.Tied pathsA pathsB)
    (hrest : (restA = [] ∧ restB = []) ∨
      ∃ path ∈ pathsA, files.makeDir path ≠ .error (.system .noEntry)) :
    (files.inside home).makeEach (pathsB ++ restB) =
      (files.makeEach (pathsA ++ restA)).map id (·.inside home) := by
  induction htied with
  | nil =>
    rcases hrest with ⟨rfl, rfl⟩ | ⟨path, hmem, _⟩
    · rfl
    · exact absurd hmem List.not_mem_nil
  | @cons a b pathsA pathsB hab htied ih =>
    rw [List.cons_append, List.cons_append, FileSystem.makeEach, FileSystem.makeEach,
      h.makeDir hab]
    by_cases hmissing : files.makeDir a = .error (.system .noEntry)
    · have hrest' : (restA = [] ∧ restB = []) ∨
          ∃ path ∈ pathsA, files.makeDir path ≠ .error (.system .noEntry) := by
        rcases hrest with hnil | ⟨path, hmem, hpath⟩
        · exact Or.inl hnil
        · rcases List.mem_cons.mp hmem with rfl | hin
          · exact absurd hmissing hpath
          · exact Or.inr ⟨path, hin, hpath⟩
      have hgrown := grown_makeEach (pathsA ++ restA) files
      -- Both sides go on with shorter paths, and then come back to this one.
      simp only [hmissing, Except.map, ih hrest']
      rcases heach : files.makeEach (pathsA ++ restA) with ⟨error | ⟨⟩, reached⟩
      · rfl
      · rw [heach] at hgrown
        have hreached := h.of_grown hgrown
        simp only [Prod.map, id, hreached.makeDir hab]
        cases reached.makeDir a with
        | ok made => rfl
        | error error => exact hreached.acceptDir hab error
    · cases hmake : files.makeDir a with
      | ok made => rfl
      | error error =>
        have hother : error ≠ .system .noEntry := fun heq => hmissing (heq ▸ hmake)
        simp only [Except.map]
        exact h.acceptDir hab error

/-- A directory right behind the root never fails for want of something on its way. -/
theorem Seated.makeDir_of_stepsFrom {path : Path} (h : Seated root home files)
    (hpath : root.StepsFrom path) : files.makeDir path ≠ .error (.system .noEntry) := by
  rcases hpath with ⟨stays, step, slash, hsteps, hstays⟩
  have hlast : path.route.last? = some step := by
    rw [hsteps, Route.last?, ← List.append_assoc]
    exact List.getLast?_concat
  have hfront : path.route.toLast = root.route.steps ++ (stays ++ [.stay]) := by
    rw [Route.toLast, hsteps, ← List.append_assoc, List.dropLast_concat, ← List.append_assoc]
  have hstart : path.route.start files.workingDirectory =
      root.route.start files.workingDirectory := by
    rw [hsteps]
    rfl
  have hfollow : files.follow path.route path.route.toLast = .ok home := by
    refine (follow_eq_ok_iff _ _ _ _).mpr ?_
    have hall : ∀ other ∈ .stay :: (stays ++ [.stay]), other = Step.stay := by
      intro other hmem
      simp only [List.mem_cons, List.mem_append, List.not_mem_nil, or_false] at hmem
      exact hmem.elim id fun hmem => hmem.elim (hstays other) id
    have hstay : files.tree.walk (maxLinks + 1) home (.stay :: (stays ++ [.stay]) ++ []) =
        .ok home := Tree.walk_stays h.directory hall []
    rw [List.append_nil] at hstay
    rw [hfront, hstart]
    unfold Tree.walk at hstay ⊢
    rw [← h.advance_behind] at hstay
    exact hstay
  unfold FileSystem.makeDir FileSystem.route FileSystem.isTooLong
  rw [h.unlimited, if_neg (Path.bytes_ne_nil_of_last hlast)]
  by_cases hzero : 0 ∈ path.bytes
  · rw [if_pos hzero]
    rintro ⟨⟩
  · rw [if_neg hzero]
    simp only [Bool.false_eq_true, ↓reduceIte, bind, Except.bind, hfollow, hlast]
    cases step with
    | stay => rintro ⟨⟩
    | climb => rintro ⟨⟩
    | overlong => rintro ⟨⟩
    | enter name =>
      dsimp only
      split <;> rintro ⟨⟩

/-- A directory is made by way of the root as it is made from there. -/
theorem Seated.makeDirs (h : Seated root home files) (htied : root.Tied a b) (name : Name) :
    (files.inside home).makeDirs (b.join ⟨name.bytes⟩) =
      (files.makeDirs (a.join ⟨name.bytes⟩)).map id (·.inside home) := by
  rcases htied.exists_ancestors h.named name with
    ⟨pathsA, pathsB, restA, restB, hA, hB, hpaths, hrest⟩
  unfold FileSystem.makeDirs
  rw [hA, hB]
  refine h.makeEach hpaths (hrest.imp_right fun hnext => ?_)
  rcases hnext with ⟨path, hmem, hpath⟩
  exact ⟨path, hmem, h.makeDir_of_stepsFrom hpath⟩

/-- A directory is reset by way of the root as it is reset from there, if the root is not
    taken away with it, and then the root stays where it is. -/
theorem Seated.resetFiles (h : Seated root home files) (htied : root.Tied a b) (name : Name)
    (haway : ¬ files.TakenBy (a.join ⟨name.bytes⟩) home) :
    Generation.resetFiles (files.inside home) (b.join ⟨name.bytes⟩) =
        (Generation.resetFiles files (a.join ⟨name.bytes⟩)).map id (·.inside home) ∧
      Seated root home (Generation.resetFiles files (a.join ⟨name.bytes⟩)).2 := by
  have hjoined := htied.join ⟨name.bytes⟩
  constructor
  · unfold Generation.resetFiles
    rw [h.pathExists hjoined]
    split
    · rename_i hexists
      have hout : ∀ place, files.locateEntry (a.join ⟨name.bytes⟩) = .ok place →
          home.isWithin place = false := fun place hplace =>
        Bool.eq_false_iff.mpr fun hin => haway ⟨hexists, place, hplace, hin⟩
      have hreduced := reduced_removeTree hexists
      rw [h.removeTree hjoined hout]
      rcases hremove : files.removeTree (a.join ⟨name.bytes⟩) with ⟨error | ⟨⟩, left⟩
      · rfl
      · rw [hremove] at hreduced
        exact (h.of_reduced hreduced haway).makeDirs htied name
    · exact h.makeDirs htied name
  · rcases resetFiles_frame files (a.join ⟨name.bytes⟩) with ⟨left, hreduced, hgrown⟩
    exact (h.of_reduced hreduced haway).of_grown hgrown

/-- Tied paths name one place. -/
theorem Seated.samePlace (h : Seated root home files) (htied : root.Tied a b) :
    SamePlace files (files.inside home) a b where
  landing := by
    rw [htied.landing h.named, h.lands]
    rfl
  located := h.locate htied
  entry := h.locateEntry htied

end FileSystem

end TestWrappers
